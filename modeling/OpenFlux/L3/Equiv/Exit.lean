import OpenFlux.L3.Equiv.Flow
import OpenFlux.L3.Exit

/-!
# Correctness of the packet handlers of the L3 exit

Both handlers do the same to a packet they forward: it is cut to its total length, one address is
rewritten and the checksums are set (`handle_eq_send_iff`).  So the packet emitted differs from the
one received in the address and the checksums only (`Translated`); outbound, the table then holds
the translated flow, and inbound, a packet of the reverse flow is taken back to the client's own
address and ports (`forwarded_both_ways`).

The TCP checksum of what is emitted is always valid, the IP checksum exactly when the IP options
add nothing to it (`checksums_valid_iff`).
-/

namespace OpenFlux.L3

open Overwrite OnesComplement

/-! ### Slicing -/

/-- What `sliceIPv4` returns. -/
structure Sliced (p pkt : Bytes) : Prop where
  eq_take : pkt = p.take (totalLength p)
  length_eq : pkt.length = totalLength p
  version : byteAt pkt 0 >>> 4 = 4
  ihl_ge : 20 ≤ ihl pkt
  ihl_le : ihl pkt ≤ pkt.length
  byteAt_eq : ∀ j < 20, byteAt pkt j = byteAt p j

theorem sliced_of_sliceIPv4 {p pkt : Bytes} (h : sliceIPv4 p = some pkt) : Sliced p pkt := by
  unfold sliceIPv4 at h
  split_ifs at h with hshort hihl htotal
  have hpkt := (Option.some.inj h).symm
  have hbyte : ∀ j < 20, byteAt pkt j = byteAt p j := by
    intro j hj
    rw [hpkt, byteAt_take (by omega)]
  have hsame : ihl pkt = ihl p := by rw [ihl, ihl, hbyte 0 (by omega)]
  have hlen : pkt.length = totalLength p := by
    rw [hpkt, List.length_take]
    omega
  refine ⟨hpkt, hlen, ?_, by omega, by omega, hbyte⟩
  rw [hbyte 0 (by omega)]
  by_contra hversion
  exact hshort (.inr hversion)

theorem Sliced.length_lt {p pkt : Bytes} (h : Sliced p pkt) : pkt.length < 65536 := by
  rw [h.length_eq]
  exact totalLength_lt p

theorem Sliced.length_ge {p pkt : Bytes} (h : Sliced p pkt) : 20 ≤ pkt.length :=
  h.ihl_ge.trans h.ihl_le

theorem Sliced.ihl_eq {p pkt : Bytes} (h : Sliced p pkt) : ihl pkt = ihl p := by
  rw [ihl, ihl, h.byteAt_eq 0 (by omega)]

theorem Sliced.byteAt_of_lt {p pkt : Bytes} (h : Sliced p pkt) {j : ℕ} (hj : j < pkt.length) :
    byteAt pkt j = byteAt p j := by
  rw [h.length_eq] at hj
  rw [h.eq_take, byteAt_take hj]

/-! ### Translation -/

/-- `q` is `pkt` with `addr` for the address at `i` and with other checksums. -/
structure Translated (i : ℕ) (addr : Addr) (pkt q : Bytes) : Prop where
  frame : Frame (Set.Ico i (i + 4) ∪ (ipChecksumField ∪ tcpChecksumField (ihl pkt))) pkt q
  addrAt_eq : addrAt q i = addr

theorem frame_overwrite_addr {pkt : Bytes} {i : ℕ} (h : i + 4 ≤ pkt.length) (addr : Addr) :
    Frame (Set.Ico i (i + 4)) pkt (overwrite pkt i addr.bytes) :=
  frame_overwrite (l := pkt) (i := i) (show i + addr.bytes.length ≤ pkt.length from h)

theorem not_mem_addr {i j : ℕ} (hj : j < i ∨ i + 4 ≤ j) : j ∉ Set.Ico i (i + 4) := by
  rintro ⟨h1, h2⟩
  omega

/-- An address rewrite keeps a TCP packet one, with the same header length. -/
theorem TCPPacket.overwrite_addr {pkt : Bytes} (h : TCPPacket pkt) {i : ℕ} (hi : 12 ≤ i)
    (hi' : i + 4 ≤ 20) (addr : Addr) :
    TCPPacket (overwrite pkt i addr.bytes) ∧ ihl (overwrite pkt i addr.bytes) = ihl pkt := by
  have hframe := frame_overwrite_addr (hi'.trans h.length_ge_twenty) addr
  have h0 : (0 : ℕ) ∉ Set.Ico i (i + 4) := not_mem_addr (.inl (by omega))
  have h9 : (9 : ℕ) ∉ Set.Ico i (i + 4) := not_mem_addr (.inl (by omega))
  exact ⟨h.of_frame hframe h0 h9, ihl_of_frame hframe h0⟩

/-- The positions a translation leaves alone. -/
theorem not_mem_translated {i n j : ℕ} (h1 : j < i ∨ i + 4 ≤ j) (h2 : j < 10 ∨ 12 ≤ j)
    (h3 : j < n + 16 ∨ n + 18 ≤ j) :
    j ∉ Set.Ico i (i + 4) ∪ (ipChecksumField ∪ tcpChecksumField n) := by
  rintro (h | h | h)
  · exact not_mem_addr h1 h
  · exact not_mem_ipChecksumField h2 h
  · exact not_mem_tcpChecksumField h3 h

/-- An address rewrite followed by `fixChecksums` is a translation. -/
theorem translated_fixChecksums {pkt : Bytes} (h : TCPPacket pkt) {i : ℕ} (hi : 12 ≤ i)
    (hi' : i + 4 ≤ 20) (addr : Addr) :
    Translated i addr pkt (fixChecksums (overwrite pkt i addr.bytes)) := by
  have hlen := hi'.trans h.length_ge_twenty
  have hge := h.ihl_ge
  obtain ⟨htcp, hsame⟩ := h.overwrite_addr hi hi' addr
  have hfix := frame_fixChecksums htcp
  rw [hsame] at hfix
  refine ⟨(frame_overwrite_addr hlen addr).trans hfix, ?_⟩
  rw [addrAt_of_frame hfix, addrAt_overwrite hlen]
  rintro j hj hlt (hip | htcpField)
  · exact not_mem_ipChecksumField (.inr (by omega)) hip
  · exact not_mem_tcpChecksumField (.inl (by omega)) htcpField

theorem Translated.ihl_eq {i : ℕ} {addr : Addr} {pkt q : Bytes} (h : Translated i addr pkt q)
    (hi : 12 ≤ i) : ihl q = ihl pkt :=
  ihl_of_frame h.frame (not_mem_translated (.inl (by omega)) (.inl (by omega)) (.inl (by omega)))

theorem Translated.tcpPacket {i : ℕ} {addr : Addr} {pkt q : Bytes} (h : Translated i addr pkt q)
    (htcp : TCPPacket pkt) (hi : 12 ≤ i) : TCPPacket q :=
  htcp.of_frame h.frame
    (not_mem_translated (.inl (by omega)) (.inl (by omega)) (.inl (by omega)))
    (not_mem_translated (.inl (by omega)) (.inl (by omega)) (.inl (by omega)))

/-- A translation keeps the other address and the ports. -/
theorem Translated.keyAt_eq {i : ℕ} {addr : Addr} {pkt q : Bytes} (h : Translated i addr pkt q)
    (htcp : TCPPacket pkt) (hi : i = 12 ∨ i = 16) :
    keyAt q = if i = 12 then { keyAt pkt with srcIP := ipU32 addr }
      else { keyAt pkt with dstIP := ipU32 addr } := by
  have hge := htcp.ihl_ge
  have hihl := h.ihl_eq (by omega)
  have hport : ∀ j < 4, byteAt q (ihl q + j) = byteAt pkt (ihl pkt + j) := by
    intro j hj
    rw [hihl]
    exact byteAt_of_frame h.frame
      (not_mem_translated (.inr (by omega)) (.inr (by omega)) (.inl (by omega)))
  have hport0 := hport 0 (by omega)
  rw [Nat.add_zero, Nat.add_zero] at hport0
  have hother : ∀ i', (i' = 12 ∨ i' = 16) → i' ≠ i → addrAt q i' = addrAt pkt i' := by
    intro i' hi' hne
    refine addrAt_of_frame h.frame fun j hj hlt => ?_
    exact not_mem_translated (by omega) (.inr (by omega)) (.inl (by omega))
  rw [keyAt, hport0, hport 1 (by omega), hport 2 (by omega), hport 3 (by omega)]
  rcases hi with rfl | rfl
  · rw [if_pos rfl, h.addrAt_eq, hother 16 (.inr rfl) (by omega), keyAt]
  · rw [if_neg (by omega), h.addrAt_eq, hother 12 (.inl rfl) (by omega), keyAt]

/-- `fixChecksums` makes no packet a TCP packet that was none. -/
theorem tcpPacket_of_fixChecksums {pkt : Bytes} (hlen : 20 ≤ pkt.length)
    (h : TCPPacket (fixChecksums pkt)) : TCPPacket pkt := by
  by_contra hnot
  have hframe : Frame ipChecksumField pkt (fixChecksums pkt) := by
    have hip := frame_fixIPChecksum hlen
    have h9 := byteAt_of_frame hip (not_mem_ipChecksumField (j := 9) (.inl (by omega)))
    have hihl := ihl_of_frame hip (not_mem_ipChecksumField (.inl (by omega)))
    unfold fixChecksums
    dsimp only
    split_ifs with hshort hproto hfits
    · exact .refl _ _
    · exact hip
    · exact hip
    · -- all checks passed, so the packet was a TCP packet
      refine absurd ⟨?_, ?_, ?_, ?_⟩ hnot
      · by_contra hversion
        exact hshort (.inr hversion)
      · omega
      · rw [hihl, hip.length_eq] at hfits
        omega
      · rw [← h9]
        exact not_not.mp hproto
  exact hnot (h.of_frame hframe.symm (not_mem_ipChecksumField (.inl (by omega)))
    (not_mem_ipChecksumField (.inl (by omega))))

/-! ### The handlers -/

/-- From the client to the network or back. -/
inductive Direction
  | outbound
  | inbound
  deriving DecidableEq

/-- The handler of a direction. -/
def handle : Direction → Addr → ℕ → Conntrack → Bytes → Conntrack × Verdict
  | .outbound => handleFromTransport
  | .inbound => handleFromInternet

/-- Where the address a direction rewrites stands. -/
def Direction.position : Direction → ℕ
  | .outbound => 12
  | .inbound => 16

/-- The address a direction writes. -/
def Direction.addr (egress : Addr) : Direction → Addr
  | .outbound => egress
  | .inbound => clientIP

/-- The packet that a direction emits for a sliced one. -/
def translate (dir : Direction) (egress : Addr) (pkt : Bytes) : Bytes :=
  fixChecksums (overwrite pkt dir.position (dir.addr egress).bytes)

theorem Direction.position_bounds (dir : Direction) : 12 ≤ dir.position ∧ dir.position + 4 ≤ 20 := by
  cases dir <;> exact ⟨by decide, by decide⟩

theorem translated_translate {pkt : Bytes} (h : TCPPacket pkt) (dir : Direction) (egress : Addr) :
    Translated dir.position (dir.addr egress) pkt (translate dir egress pkt) :=
  translated_fixChecksums h dir.position_bounds.1 dir.position_bounds.2 _

theorem tcpPacket_of_translate (dir : Direction) {egress : Addr} {pkt : Bytes}
    (hlen : 20 ≤ pkt.length) (h : TCPPacket (translate dir egress pkt)) : TCPPacket pkt := by
  have hbounds := dir.position_bounds
  have hframe := frame_overwrite_addr (hbounds.2.trans hlen) (dir.addr egress)
  have htcp := tcpPacket_of_fixChecksums (by rw [hframe.length_eq]; exact hlen) h
  exact htcp.of_frame hframe.symm (not_mem_addr (.inl (by omega))) (not_mem_addr (.inl (by omega)))

theorem existsEntry_insert (ct : Conntrack) (k : FlowKey) (now : ℕ) :
    (ct.insert k now).existsEntry k = true := by
  unfold Conntrack.insert Conntrack.existsEntry
  cases ct k <;> simp

theorem existsEntry_touch {ct : Conntrack} {k k' : FlowKey} (h : ct.existsEntry k = true)
    (dying : Bool) (now : ℕ) : (ct.touch k' dying now).existsEntry k = true := by
  unfold Conntrack.touch
  cases hentry : ct k' with
  | none => exact h
  | some e =>
    by_cases hk : k = k'
    · subst hk
      simp [Conntrack.existsEntry]
    · simpa [Conntrack.existsEntry, Function.update_of_ne hk] using h

/-- What `handleFromTransport` forwards: TCP packets without the RST flag, translated; the table
then holds the translated flow. -/
theorem handleFromTransport_eq_send_iff {egress : Addr} {now : ℕ} {ct : Conntrack} {p q : Bytes} :
    (handleFromTransport egress now ct p).2 = .send q ↔ ∃ pkt, sliceIPv4 p = some pkt ∧
      isTCPRST pkt = false ∧ TCPPacket pkt ∧ q = translate .outbound egress pkt := by
  unfold handleFromTransport
  cases hslice : sliceIPv4 p with
  | none => simp
  | some pkt =>
    have hlen := (sliced_of_sliceIPv4 hslice).length_ge
    simp only [Option.some.injEq, exists_eq_left']
    cases hrst : isTCPRST pkt with
    | true => simp
    | false =>
      have hkey : ∀ k, extractFlowKey (fixChecksums (rewriteSNAT pkt egress)) = some k →
          TCPPacket pkt := fun k hk =>
        tcpPacket_of_translate .outbound hlen (extractFlowKey_eq_some_iff.mp hk).1
      simp only [Bool.false_eq_true, if_false]
      cases hextract : extractFlowKey (fixChecksums (rewriteSNAT pkt egress)) with
      | none =>
        have hnot : ¬ TCPPacket pkt := fun htcp => by
          have hq := (translated_translate htcp .outbound egress).tcpPacket htcp (by decide)
          have hsome := extractFlowKey_eq_some_iff.mpr ⟨hq, rfl⟩
          rw [show translate .outbound egress pkt = fixChecksums (rewriteSNAT pkt egress) from rfl,
            hextract] at hsome
          cases hsome
        simp [hnot]
      | some k =>
        simp only [Verdict.send.injEq, hkey k hextract, true_and]
        exact eq_comm

/-- What `handleFromInternet` forwards: TCP packets to the egress address whose reverse flow is in
the table, translated. -/
theorem handleFromInternet_eq_send_iff {egress : Addr} {now : ℕ} {ct : Conntrack} {p q : Bytes} :
    (handleFromInternet egress now ct p).2 = .send q ↔ ∃ pkt, sliceIPv4 p = some pkt ∧
      addrAt pkt 16 = egress ∧ TCPPacket pkt ∧ ct.existsEntry (reverseKey (keyAt pkt)) = true ∧
        q = translate .inbound egress pkt := by
  unfold handleFromInternet
  cases hslice : sliceIPv4 p with
  | none => simp
  | some pkt =>
    have haddr : addrAt pkt 16 = egress ↔ byteAt pkt 16 = egress.a ∧ byteAt pkt 17 = egress.b ∧
        byteAt pkt 18 = egress.c ∧ byteAt pkt 19 = egress.d := by
      cases egress
      simp only [addrAt, Addr.mk.injEq]
    simp only [Option.some.injEq, exists_eq_left', haddr]
    by_cases hforus : byteAt pkt 16 ≠ egress.a ∨ byteAt pkt 17 ≠ egress.b ∨
        byteAt pkt 18 ≠ egress.c ∨ byteAt pkt 19 ≠ egress.d
    · rw [if_pos hforus]
      constructor
      · intro h
        cases h
      · rintro ⟨⟨h1, h2, h3, h4⟩, -⟩
        rcases hforus with h | h | h | h
        · exact absurd h1 h
        · exact absurd h2 h
        · exact absurd h3 h
        · exact absurd h4 h
    · rw [if_neg hforus]
      simp only [not_or, not_not] at hforus
      cases hextract : extractFlowKey pkt with
      | none =>
        have hnot : ¬ TCPPacket pkt := fun htcp => by
          rw [extractFlowKey_eq_some_iff.mpr ⟨htcp, rfl⟩] at hextract
          cases hextract
        simp [hnot]
      | some k =>
        obtain ⟨htcp, rfl⟩ := extractFlowKey_eq_some_iff.mp hextract
        cases hentry : ct.existsEntry (reverseKey (keyAt pkt)) with
        | false => simp [hentry]
        | true =>
          simp only [hentry, if_true, Verdict.send.injEq, hforus, htcp, and_self, true_and]
          exact eq_comm

/-- What the handler of a direction asks of a sliced packet. -/
def Accepts (egress : Addr) (ct : Conntrack) (pkt : Bytes) : Direction → Prop
  | .outbound => isTCPRST pkt = false ∧ TCPPacket pkt
  | .inbound => addrAt pkt 16 = egress ∧ TCPPacket pkt ∧
      ct.existsEntry (reverseKey (keyAt pkt)) = true

theorem Accepts.tcpPacket {egress : Addr} {ct : Conntrack} {pkt : Bytes} {dir : Direction}
    (h : Accepts egress ct pkt dir) : TCPPacket pkt := by
  cases dir with
  | outbound => exact h.2
  | inbound => exact h.2.1

/-- **What both handlers forward**: an accepted packet, translated. -/
theorem handle_eq_send_iff {dir : Direction} {egress : Addr} {now : ℕ} {ct : Conntrack}
    {p q : Bytes} :
    (handle dir egress now ct p).2 = .send q ↔ ∃ pkt, sliceIPv4 p = some pkt ∧
      Accepts egress ct pkt dir ∧ q = translate dir egress pkt := by
  cases dir with
  | outbound =>
    simp only [handle, Accepts, handleFromTransport_eq_send_iff, and_assoc]
  | inbound =>
    simp only [handle, Accepts, handleFromInternet_eq_send_iff, and_assoc]

/-- After an outbound packet is forwarded its translated flow is in the table. -/
theorem existsEntry_of_send {egress : Addr} {now : ℕ} {ct : Conntrack} {p q : Bytes}
    (h : (handleFromTransport egress now ct p).2 = .send q) :
    (handleFromTransport egress now ct p).1.existsEntry (keyAt q) = true := by
  obtain ⟨pkt, hslice, hrst, htcp, hq⟩ := handleFromTransport_eq_send_iff.mp h
  have hq' := (translated_translate htcp .outbound egress).tcpPacket htcp (by decide)
  have hextract : extractFlowKey (fixChecksums (rewriteSNAT pkt egress)) = some (keyAt q) := by
    rw [hq]
    exact extractFlowKey_eq_some_iff.mpr ⟨hq', rfl⟩
  unfold handleFromTransport
  simp only [hslice, hrst, hextract, Bool.false_eq_true, if_false]
  split_ifs
  · exact existsEntry_touch (existsEntry_insert _ _ _) _ _
  · exact existsEntry_insert _ _ _

/-! ### Both ways -/

theorem ipU32_injective {addr addr' : Addr} (h : ipU32 addr = ipU32 addr') : addr = addr' := by
  obtain ⟨a, b, c, d⟩ := addr
  obtain ⟨a', b', c', d'⟩ := addr'
  have hnat := congrArg UInt32.toNat h
  rw [ipU32, ipU32, toNat_beUint32, toNat_beUint32] at hnat
  have hlt : ∀ x : UInt8, x.toNat < 256 := fun x => x.toNat_lt
  have h1 := hlt a
  have h2 := hlt b
  have h3 := hlt c
  have h4 := hlt d
  have h1' := hlt a'
  have h2' := hlt b'
  have h3' := hlt c'
  have h4' := hlt d'
  simp only at hnat
  rw [Addr.mk.injEq, ← UInt8.toNat_inj, ← UInt8.toNat_inj, ← UInt8.toNat_inj, ← UInt8.toNat_inj]
  omega

/-- The flow of the client as the network sees it. -/
def FlowKey.translated (egress : Addr) (k : FlowKey) : FlowKey := { k with srcIP := ipU32 egress }

theorem reverseKey_reverseKey (k : FlowKey) : reverseKey (reverseKey k) = k := rfl

/-- Outbound, the flow of what is emitted is the translated flow. -/
theorem keyAt_translate_outbound {pkt : Bytes} (h : TCPPacket pkt) (egress : Addr) :
    keyAt (translate .outbound egress pkt) = (keyAt pkt).translated egress := by
  rw [(translated_translate h .outbound egress).keyAt_eq h (.inl rfl)]
  exact if_pos rfl

/-- Inbound, a packet of the reverse of a translated flow comes out on the client's own flow. -/
theorem keyAt_translate_inbound {pkt : Bytes} (h : TCPPacket pkt) {egress : Addr} {k : FlowKey}
    (hsrc : k.srcIP = ipU32 clientIP) (hkey : keyAt pkt = reverseKey (k.translated egress)) :
    keyAt (translate .inbound egress pkt) = reverseKey k := by
  have hback : keyAt (translate .inbound egress pkt) =
      { keyAt pkt with dstIP := ipU32 clientIP } := by
    rw [(translated_translate h .inbound egress).keyAt_eq h (.inr rfl)]
    exact if_neg (by decide)
  rw [hback, hkey, ← hsrc]
  rfl

/-- A packet of the reverse of a live translated flow is forwarded. -/
theorem handleFromInternet_of_reverse {egress : Addr} {now : ℕ} {ct : Conntrack} {r pkt : Bytes}
    {k : FlowKey} (hslice : sliceIPv4 r = some pkt) (htcp : TCPPacket pkt)
    (hkey : keyAt pkt = reverseKey (k.translated egress))
    (hlive : ct.existsEntry (k.translated egress) = true) :
    (handleFromInternet egress now ct r).2 = .send (translate .inbound egress pkt) := by
  refine handleFromInternet_eq_send_iff.mpr ⟨pkt, hslice, ?_, htcp, ?_, rfl⟩
  · show addrAt pkt 16 = egress
    have hdst : (keyAt pkt).dstIP = (reverseKey (k.translated egress)).dstIP := by rw [hkey]
    exact ipU32_injective hdst
  · rw [hkey, reverseKey_reverseKey]
    exact hlive

/-- **There and back**: a packet of the client that is forwarded is cut to its total length and
leaves from the egress address, and while its flow is in the table, a packet of the reverse flow is
cut to its total length and reaches the client on the flow of the first packet. -/
theorem forwarded_both_ways {egress : Addr} {now : ℕ} {ct : Conntrack} {p q : Bytes}
    (hout : (handleFromTransport egress now ct p).2 = .send q) (hsrc : addrAt p 12 = clientIP) :
    ∃ k, extractFlowKey (p.take (totalLength p)) = some k ∧
      Translated 12 egress (p.take (totalLength p)) q ∧
      extractFlowKey q = some (k.translated egress) ∧
      (handleFromTransport egress now ct p).1.existsEntry (k.translated egress) = true ∧
      ∀ (now' : ℕ) (ct' : Conntrack) (r pkt : Bytes), sliceIPv4 r = some pkt →
        extractFlowKey pkt = some (reverseKey (k.translated egress)) →
        ct'.existsEntry (k.translated egress) = true →
        ∃ q', (handleFromInternet egress now' ct' r).2 = .send q' ∧
          Translated 16 clientIP (r.take (totalLength r)) q' ∧
          extractFlowKey q' = some (reverseKey k) := by
  obtain ⟨pkt, hslice, -, htcp, hq⟩ := handleFromTransport_eq_send_iff.mp hout
  have hsliced := sliced_of_sliceIPv4 hslice
  have htrans := translated_translate htcp .outbound egress
  have hkeyq : keyAt q = (keyAt pkt).translated egress := by
    rw [hq]
    exact keyAt_translate_outbound htcp egress
  have hsrcKey : (keyAt pkt).srcIP = ipU32 clientIP := by
    show ipU32 (addrAt pkt 12) = _
    rw [← hsrc, addrAt, addrAt, hsliced.byteAt_eq 12 (by omega), hsliced.byteAt_eq 13 (by omega),
      hsliced.byteAt_eq 14 (by omega), hsliced.byteAt_eq 15 (by omega)]
  refine ⟨keyAt pkt, ?_, ?_, ?_, ?_, ?_⟩
  · rw [← hsliced.eq_take]
    exact extractFlowKey_eq_some_iff.mpr ⟨htcp, rfl⟩
  · rw [← hsliced.eq_take, hq]
    exact htrans
  · have hqtcp := htrans.tcpPacket htcp (by decide)
    rw [← hkeyq]
    exact extractFlowKey_eq_some_iff.mpr ⟨hq ▸ hqtcp, rfl⟩
  · rw [← hkeyq]
    exact existsEntry_of_send hout
  · intro now' ct' r rpkt hr hkey hlive
    obtain ⟨hrtcp, hrkey⟩ := extractFlowKey_eq_some_iff.mp hkey
    have hback := translated_translate hrtcp .inbound egress
    refine ⟨translate .inbound egress rpkt,
      handleFromInternet_of_reverse hr hrtcp hrkey.symm hlive, ?_, ?_⟩
    · rw [← (sliced_of_sliceIPv4 hr).eq_take]
      exact hback
    · rw [← keyAt_translate_inbound hrtcp hsrcKey hrkey.symm]
      exact extractFlowKey_eq_some_iff.mpr ⟨hback.tcpPacket hrtcp (by decide), rfl⟩

/-- An egress address. -/
def sampleEgress : Addr := ⟨203, 0, 113, 7⟩

/-- A SYN from the client's port 49152 to 93.184.216.34:443. -/
def syn : Bytes :=
  [0x45, 0, 0, 40, 0, 0, 0x40, 0, 64, 6, 0, 0, 10, 10, 10, 2, 93, 184, 216, 34,
    0xC0, 0, 0x01, 0xBB, 0, 0, 0, 1, 0, 0, 0, 0, 0x50, 0x02, 0xFF, 0xFF, 0, 0, 0, 0]

/-- The SYN-ACK to the egress address that answers `syn`. -/
def synAck : Bytes :=
  [0x45, 0, 0, 40, 0, 0, 0x40, 0, 50, 6, 0, 0, 93, 184, 216, 34, 203, 0, 113, 7,
    0x01, 0xBB, 0xC0, 0, 0, 0, 0, 9, 0, 0, 0, 2, 0x50, 0x12, 0xFF, 0xFF, 0, 0, 0, 0]

theorem tcpPacket_syn : TCPPacket syn := ⟨by decide, by decide, by decide, by decide⟩

/-- The table after `syn`. -/
def sampleTable : Conntrack := (handleFromTransport sampleEgress 0 .empty syn).1

theorem forwarded_both_ways_syn :
    ∃ q', (handleFromInternet sampleEgress 1 sampleTable synAck).2 = .send q' ∧
      Translated 16 clientIP (synAck.take (totalLength synAck)) q' ∧
      extractFlowKey q' = some (reverseKey (keyAt syn)) := by
  have hout : (handleFromTransport sampleEgress 0 .empty syn).2 =
      .send (translate .outbound sampleEgress syn) :=
    handleFromTransport_eq_send_iff.mpr ⟨syn, by decide, by decide, tcpPacket_syn, rfl⟩
  obtain ⟨k, hk, -, -, hlive, hback⟩ := forwarded_both_ways hout (by decide)
  have hsyn : extractFlowKey (syn.take (totalLength syn)) = some (keyAt syn) := by decide
  have hkey : k = keyAt syn := Option.some.inj (hk.symm.trans hsyn)
  subst hkey
  exact hback 1 sampleTable synAck synAck (by decide) (by decide) hlive

/-! ### Checksums -/

theorem options_take {p : Bytes} {n : ℕ} (h : ihl p ≤ n) (h0 : 0 < n) :
    options (p.take n) = options p := by
  have hihl : ihl (p.take n) = ihl p := by rw [ihl, ihl, byteAt_take h0]
  rw [options, options, hihl, List.drop_take, List.take_take, min_eq_left (by omega)]

theorem options_overwrite_addr {pkt : Bytes} (h : TCPPacket pkt) {i : ℕ} (hi : 12 ≤ i)
    (hi' : i + 4 ≤ 20) (addr : Addr) : options (overwrite pkt i addr.bytes) = options pkt := by
  have hframe := frame_overwrite_addr (hi'.trans h.length_ge_twenty) addr
  rw [options, options, (h.overwrite_addr hi hi' addr).2]
  exact hframe.take_drop_eq fun j hj hlt => not_mem_addr (.inr (by omega))

theorem ipChecksumValid_translate_iff {pkt : Bytes} (h : TCPPacket pkt) (dir : Direction)
    (egress : Addr) :
    IPChecksumValid (translate dir egress pkt) ↔ 65535 ∣ wordSum (options pkt) := by
  obtain ⟨hlow, hhigh⟩ := dir.position_bounds
  obtain ⟨htcp, -⟩ := h.overwrite_addr hlow hhigh (dir.addr egress)
  rw [translate, ipChecksumValid_fixChecksums_iff htcp, options_overwrite_addr h hlow hhigh]

theorem tcpChecksumValid_translate {pkt : Bytes} (h : TCPPacket pkt) (hlt : pkt.length < 65536)
    (dir : Direction) (egress : Addr) : TCPChecksumValid (translate dir egress pkt) := by
  obtain ⟨hlow, hhigh⟩ := dir.position_bounds
  obtain ⟨htcp, -⟩ := h.overwrite_addr hlow hhigh (dir.addr egress)
  have hframe := frame_overwrite_addr (hhigh.trans h.length_ge_twenty) (dir.addr egress)
  exact tcpChecksumValid_fixChecksums htcp (by rw [hframe.length_eq]; exact hlt)

/-- **Valid checksums**: what a handler emits carries a valid IP and a valid TCP checksum exactly
when the words of the IP options it came in with add up to a multiple of 65535. -/
theorem checksums_valid_iff {dir : Direction} {egress : Addr} {now : ℕ} {ct : Conntrack}
    {p q : Bytes} (h : (handle dir egress now ct p).2 = .send q) :
    IPChecksumValid q ∧ TCPChecksumValid q ↔ 65535 ∣ wordSum (options p) := by
  obtain ⟨pkt, hslice, haccepts, rfl⟩ := handle_eq_send_iff.mp h
  have htcp := haccepts.tcpPacket
  have hsliced := sliced_of_sliceIPv4 hslice
  have htotal : ihl p ≤ totalLength p := by
    rw [← hsliced.ihl_eq, ← hsliced.length_eq]
    exact hsliced.ihl_le
  have hpos : 0 < totalLength p := by
    rw [← hsliced.length_eq]
    exact lt_of_lt_of_le (by omega) hsliced.length_ge
  have hoptions : options pkt = options p := by rw [hsliced.eq_take, options_take htotal hpos]
  rw [ipChecksumValid_translate_iff htcp, hoptions]
  exact and_iff_left (tcpChecksumValid_translate htcp hsliced.length_lt dir egress)

theorem checksums_valid_syn :
    IPChecksumValid (translate .outbound sampleEgress syn) ∧
      TCPChecksumValid (translate .outbound sampleEgress syn) := by
  have hout : (handle .outbound sampleEgress 0 .empty syn).2 =
      .send (translate .outbound sampleEgress syn) :=
    handleFromTransport_eq_send_iff.mpr ⟨syn, by decide, by decide, tcpPacket_syn, rfl⟩
  exact (checksums_valid_iff hout).mpr (by decide)

/-- A SYN with the Router Alert option in its IP header. -/
def routerAlertSyn : Bytes :=
  [0x46, 0, 0, 44, 0, 0, 0x40, 0, 64, 6, 0, 0, 10, 10, 10, 2, 93, 184, 216, 34,
    0x94, 0x04, 0, 0,
    0xC0, 0, 0x01, 0xBB, 0, 0, 0, 1, 0, 0, 0, 0, 0x50, 0x02, 0xFF, 0xFF, 0, 0, 0, 0]

/-- It is forwarded with an IP checksum that is wrong. -/
theorem routerAlert_checksum_wrong :
    ∃ q, (handleFromTransport sampleEgress 0 .empty routerAlertSyn).2 = .send q ∧
      ¬ IPChecksumValid q := by
  have htcp : TCPPacket routerAlertSyn := ⟨by decide, by decide, by decide, by decide⟩
  refine ⟨translate .outbound sampleEgress routerAlertSyn,
    handleFromTransport_eq_send_iff.mpr ⟨routerAlertSyn, by decide, by decide, htcp, rfl⟩, ?_⟩
  rw [ipChecksumValid_translate_iff htcp]
  decide

end OpenFlux.L3
