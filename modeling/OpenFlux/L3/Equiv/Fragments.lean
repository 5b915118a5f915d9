import OpenFlux.L3.Equiv.Exit

/-!
# Fragments at the L3 exit

The handlers never look at the fragment offset.  A fragment that carries no TCP header but 20 bytes
or more of the segment is taken for a TCP packet, and `fixChecksums` writes a checksum at offset 16
of what it carries.

`FragmentedSegment` is a TCP segment that arrives in IPv4 fragments, and `reassembly` the bytes that
a list of fragments carries at a position of the segment.  The payload survives the exit exactly
when every fragment that is forwarded writes the checksum into the TCP header, or already holds
the two bytes that are written (`reassembly_forwarded_iff`).
-/

namespace OpenFlux.L3

open Overwrite OnesComplement

/-! ### Reassembly -/

/-- The fragment offset, in bytes. -/
def fragOffset (pkt : Bytes) : ℕ :=
  ((byteAt pkt 6 &&& 0x1F).toNat * 256 + (byteAt pkt 7).toNat) * 8

/-- The More Fragments flag. -/
def moreFragments (pkt : Bytes) : Bool := byteAt pkt 6 &&& 0x20 ≠ 0

/-- The byte that a fragment carries for position `i` of the segment. -/
def carried (pkt : Bytes) (i : ℕ) : Option UInt8 :=
  if fragOffset pkt ≤ i ∧ ihl pkt + (i - fragOffset pkt) < totalLength pkt then
    some (byteAt pkt (ihl pkt + (i - fragOffset pkt)))
  else none

/-- The bytes that a list of fragments carries for position `i` of the segment. -/
def reassembly (pkts : List Bytes) (i : ℕ) : List UInt8 := pkts.filterMap (carried · i)

/-- The length of the TCP header at the start of a segment. -/
def tcpHeaderLength (segment : Bytes) : ℕ := (byteAt segment 12 >>> 4).toNat * 4

/-- A fragment at its arrival: the time and the table of that moment. -/
structure Arrival where
  fragment : Bytes
  now : ℕ
  ct : Conntrack

/-- A TCP segment that arrives in fragments. -/
structure FragmentedSegment where
  segment : Bytes
  header_ge : 20 ≤ tcpHeaderLength segment
  header_le : tcpHeaderLength segment ≤ segment.length
  arrivals : List Arrival
  wellFormed : ∀ a ∈ arrivals, sliceIPv4 a.fragment ≠ none ∧ byteAt a.fragment 9 = 6
  -- every byte of the segment arrives once
  complete : ∀ i, reassembly (arrivals.map Arrival.fragment) i = segment[i]?.toList
  more : ∀ a ∈ arrivals, moreFragments a.fragment = true ↔
    fragOffset a.fragment + (totalLength a.fragment - ihl a.fragment) < segment.length

/-- The fragments that a direction forwards, each with what is emitted for it. -/
def forwarded (dir : Direction) (egress : Addr) (arrivals : List Arrival) : List (Bytes × Bytes) :=
  arrivals.filterMap fun a =>
    match (handle dir egress a.now a.ct a.fragment).2 with
    | .send q => some (a.fragment, q)
    | _ => none

theorem mem_forwarded_iff {dir : Direction} {egress : Addr} {arrivals : List Arrival}
    {x : Bytes × Bytes} : x ∈ forwarded dir egress arrivals ↔ ∃ a ∈ arrivals, ∃ pkt,
      sliceIPv4 a.fragment = some pkt ∧ Accepts egress a.ct pkt dir ∧
        x = (a.fragment, translate dir egress pkt) := by
  rw [forwarded, List.mem_filterMap]
  refine exists_congr fun a => and_congr_right fun _ => ?_
  constructor
  · intro h
    cases hverdict : (handle dir egress a.now a.ct a.fragment).2 with
    | send q =>
      obtain ⟨pkt, hslice, haccepts, hq⟩ := handle_eq_send_iff.mp hverdict
      rw [hverdict] at h
      refine ⟨pkt, hslice, haccepts, ?_⟩
      rw [← hq]
      exact (Option.some.inj h).symm
    | _ =>
      rw [hverdict] at h
      cases h
  · rintro ⟨pkt, hslice, haccepts, hx⟩
    rw [handle_eq_send_iff.mpr ⟨pkt, hslice, haccepts, rfl⟩, hx]

/-- Lists of values read off one list in two ways, where the readings have the same support. -/
theorem filterMap_eq_filterMap_iff {α β : Type*} {f g : α → Option β} {l : List α}
    (h : ∀ x ∈ l, (f x).isSome = (g x).isSome) :
    l.filterMap f = l.filterMap g ↔ ∀ x ∈ l, f x = g x := by
  refine ⟨?_, List.filterMap_congr⟩
  induction l with
  | nil => exact fun _ _ hx => absurd hx List.not_mem_nil
  | cons x l ih =>
    have ih := ih fun y hy => h y (List.mem_cons_of_mem x hy)
    have hx := h x List.mem_cons_self
    rw [List.forall_mem_cons]
    cases hf : f x with
    | none =>
      have hg : g x = none := by
        rw [hf] at hx
        exact Option.isSome_eq_false_iff.mp hx.symm |> Option.isNone_iff_eq_none.mp
      rw [List.filterMap_cons_none hf, List.filterMap_cons_none hg, hg]
      exact fun heq => ⟨rfl, ih heq⟩
    | some b =>
      rw [hf] at hx
      obtain ⟨c, hg⟩ := Option.isSome_iff_exists.mp hx.symm
      rw [List.filterMap_cons_some hf, List.filterMap_cons_some hg, hg, List.cons_eq_cons]
      exact fun heq => ⟨congrArg some heq.1, ih heq.2⟩

/-! ### One fragment -/

/-- The packet with the address of a direction rewritten and its checksums as they were. -/
def readdress (dir : Direction) (egress : Addr) (pkt : Bytes) : Bytes :=
  overwrite pkt dir.position (dir.addr egress).bytes

/-- The two bytes at offset 16 of what the packet carries are the checksum that is written there:
with the new address, the sum over the pseudo header and the rest of the packet is all ones, and
the bytes are not `FF FF`. -/
def ChecksumStands (dir : Direction) (egress : Addr) (pkt : Bytes) : Prop :=
  TCPChecksumValid (readdress dir egress pkt) ∧
    ¬ (byteAt pkt (ihl pkt + 16) = 0xFF ∧ byteAt pkt (ihl pkt + 17) = 0xFF)

/-- The IP checksum has no part in the TCP checksum. -/
theorem tcpChecksumValid_fixIPChecksum_iff {pkt : Bytes} (h : TCPPacket pkt) :
    TCPChecksumValid (fixIPChecksum pkt) ↔ TCPChecksumValid pkt := by
  have hframe := frame_fixIPChecksum h.length_ge_twenty
  have hihl := h.fixIPChecksum.2
  have hdrop : (fixIPChecksum pkt).drop (ihl pkt) = pkt.drop (ihl pkt) := by
    have hge := h.ihl_ge
    have hpart := hframe.take_drop_eq (i := ihl pkt) (n := pkt.length) fun j hj _ =>
      not_mem_ipChecksumField (.inr (by omega))
    rwa [List.take_of_length_le (by rw [List.length_drop, hframe.length_eq]; omega),
      List.take_of_length_le (by rw [List.length_drop]; omega)] at hpart
  unfold TCPChecksumValid
  rw [hihl, hdrop, hframe.length_eq,
    addrAt_of_frame hframe fun j hj _ => not_mem_ipChecksumField (.inr (by omega)),
    addrAt_of_frame hframe fun j hj _ => not_mem_ipChecksumField (.inr (by omega))]

/-- A translation keeps the two bytes at offset 16 exactly when the checksum stands. -/
theorem translate_field_eq_iff {pkt : Bytes} (h : TCPPacket pkt) (hlt : pkt.length < 65536)
    (dir : Direction) (egress : Addr) :
    (byteAt (translate dir egress pkt) (ihl pkt + 16) = byteAt pkt (ihl pkt + 16) ∧
      byteAt (translate dir egress pkt) (ihl pkt + 17) = byteAt pkt (ihl pkt + 17)) ↔
    ChecksumStands dir egress pkt := by
  have hge := h.ihl_ge
  obtain ⟨hlow, hhigh⟩ := dir.position_bounds
  obtain ⟨hr, hihlr⟩ := h.overwrite_addr hlow hhigh (dir.addr egress)
  have hframe := frame_overwrite_addr (hhigh.trans h.length_ge_twenty) (dir.addr egress)
  obtain ⟨hx, hihlx⟩ := hr.fixIPChecksum
  have hframex := frame_fixIPChecksum hr.length_ge_twenty
  have hsame : ∀ j, 20 ≤ j → byteAt (fixIPChecksum (readdress dir egress pkt)) j = byteAt pkt j := by
    intro j hj
    rw [readdress, byteAt_of_frame hframex (not_mem_ipChecksumField (.inr (by omega))),
      byteAt_of_frame hframe (not_mem_addr (.inr (by omega)))]
  have hkeep := fixTCPChecksum_field_eq_iff hx
    (by rw [hframex.length_eq, hframe.length_eq]; exact hlt)
  rw [hihlx, hihlr, tcpChecksumValid_fixIPChecksum_iff hr] at hkeep
  rw [← readdress, hsame _ (by omega), hsame _ (by omega)] at hkeep
  rw [translate, fixChecksums_of_tcp hr]
  exact hkeep

theorem carried_eq_ite (pkt : Bytes) {n off total : ℕ} (hn : ihl pkt = n)
    (hoff : fragOffset pkt = off) (htotal : totalLength pkt = total) (i : ℕ) :
    carried pkt i =
      if off ≤ i ∧ n + (i - off) < total then some (byteAt pkt (n + (i - off))) else none := by
  subst hn hoff htotal
  rfl

theorem eight_dvd_fragOffset (pkt : Bytes) : 8 ∣ fragOffset pkt := Nat.dvd_mul_left 8 _

theorem four_dvd_tcpHeaderLength (segment : Bytes) : 4 ∣ tcpHeaderLength segment :=
  Nat.dvd_mul_left 4 _

/-- A forwarded fragment `p` and the packet `q` emitted for it carry the same positions, and the
same bytes but for the two of the checksum. -/
structure SameCarried (p q : Bytes) : Prop where
  ihl_eq : ihl q = ihl p
  fragOffset_eq : fragOffset q = fragOffset p
  totalLength_eq : totalLength q = totalLength p
  length_ge : ihl p + 20 ≤ totalLength p
  byteAt_eq : ∀ j, ihl p ≤ j → j < totalLength p → j ≠ ihl p + 16 → j ≠ ihl p + 17 →
    byteAt q j = byteAt p j

theorem sameCarried_translate {p pkt : Bytes} (hslice : sliceIPv4 p = some pkt)
    (htcp : TCPPacket pkt) (dir : Direction) (egress : Addr) :
    SameCarried p (translate dir egress pkt) := by
  have hsliced := sliced_of_sliceIPv4 hslice
  obtain ⟨hlow, hhigh⟩ := dir.position_bounds
  have hframe := (translated_translate htcp dir egress).frame
  have hge := htcp.ihl_ge
  have hlen := htcp.length_ge
  have hihl := hsliced.ihl_eq
  -- the length, the offset and the header length stand in the first ten bytes
  have hhead : ∀ j < 10, byteAt (translate dir egress pkt) j = byteAt p j := by
    intro j hj
    rw [byteAt_of_frame hframe (not_mem_translated (.inl (by omega)) (.inl hj) (.inl (by omega))),
      hsliced.byteAt_eq j (by omega)]
  refine ⟨?_, ?_, ?_, ?_, ?_⟩
  · rw [ihl, ihl, hhead 0 (by omega)]
  · rw [fragOffset, fragOffset, hhead 6 (by omega), hhead 7 (by omega)]
  · rw [totalLength, totalLength, hhead 2 (by omega), hhead 3 (by omega)]
  · rw [← hihl, ← hsliced.length_eq]
    exact hlen
  · intro j hj hlt h16 h17
    have hout := not_mem_translated (i := dir.position) (n := ihl pkt) (j := j) (.inr (by omega))
      (.inr (by omega)) (by omega)
    rw [byteAt_of_frame hframe hout, hsliced.byteAt_of_lt (by rw [hsliced.length_eq]; exact hlt)]

theorem SameCarried.isSome_eq {p q : Bytes} (h : SameCarried p q) (i : ℕ) :
    (carried q i).isSome = (carried p i).isSome := by
  rw [carried_eq_ite q h.ihl_eq h.fragOffset_eq h.totalLength_eq, carried]
  split_ifs
  · rfl
  · rfl

/-- **What one fragment does to the payload**: it is kept when the checksum falls into the TCP
header or the two bytes stay what they were. -/
theorem SameCarried.payload_eq_iff {p q : Bytes} (h : SameCarried p q) {n : ℕ} (hn : 4 ∣ n) :
    (∀ i, n ≤ i → carried q i = carried p i) ↔ fragOffset p + 16 < n ∨
      (byteAt q (ihl p + 16) = byteAt p (ihl p + 16) ∧
        byteAt q (ihl p + 17) = byteAt p (ihl p + 17)) := by
  have hlen := h.length_ge
  have hoff := eight_dvd_fragOffset p
  have hq := carried_eq_ite q h.ihl_eq h.fragOffset_eq h.totalLength_eq
  have hp := carried_eq_ite p rfl rfl rfl
  constructor
  · intro heq
    by_cases hheader : fragOffset p + 16 < n
    · exact .inl hheader
    have hat : ∀ k, 16 ≤ k → k < 20 → byteAt q (ihl p + k) = byteAt p (ihl p + k) := by
      intro k hk hk'
      have hsame := heq (fragOffset p + k) (by omega)
      rw [hq, hp, Nat.add_sub_cancel_left, if_pos ⟨by omega, by omega⟩,
        if_pos ⟨by omega, by omega⟩] at hsame
      exact Option.some.inj hsame
    exact .inr ⟨hat 16 (by omega) (by omega), hat 17 (by omega) (by omega)⟩
  · intro hcases i hi
    rw [hq, hp]
    by_cases hin : fragOffset p ≤ i ∧ ihl p + (i - fragOffset p) < totalLength p
    · rw [if_pos hin, if_pos hin]
      refine congrArg some ?_
      by_cases h16 : i - fragOffset p = 16
      · rcases hcases with hheader | ⟨hbyte, -⟩
        · omega
        · rw [h16, hbyte]
      · by_cases h17 : i - fragOffset p = 17
        · rcases hcases with hheader | ⟨-, hbyte⟩
          · omega
          · rw [h17, hbyte]
        · exact h.byteAt_eq _ (by omega) hin.2 (by omega) (by omega)
    · rw [if_neg hin, if_neg hin]

/-- The payload a forwarded fragment carries is kept when the checksum falls into the TCP header or
stands. -/
theorem carried_translate_eq_iff {p pkt : Bytes} (hslice : sliceIPv4 p = some pkt)
    (htcp : TCPPacket pkt) (dir : Direction) (egress : Addr) {n : ℕ} (hn : 4 ∣ n) :
    (∀ i, n ≤ i → carried (translate dir egress pkt) i = carried p i) ↔
      fragOffset pkt + 16 < n ∨ ChecksumStands dir egress pkt := by
  have hsliced := sliced_of_sliceIPv4 hslice
  have hlen := htcp.length_ge
  have hoff : fragOffset pkt = fragOffset p := by
    rw [fragOffset, fragOffset, hsliced.byteAt_eq 6 (by omega), hsliced.byteAt_eq 7 (by omega)]
  rw [(sameCarried_translate hslice htcp dir egress).payload_eq_iff hn,
    ← translate_field_eq_iff htcp hsliced.length_lt dir egress, hsliced.byteAt_of_lt (by omega),
    hsliced.byteAt_of_lt (by omega), hsliced.ihl_eq, hoff]

/-- Nothing is carried past the end. -/
theorem carried_eq_none {pkt : Bytes} {i : ℕ} (h : fragOffset pkt + totalLength pkt ≤ ihl pkt + i) :
    carried pkt i = none := by
  apply if_neg
  rintro ⟨hle, hlt⟩
  omega

/-! ### All fragments -/

/-- The payload survives when each fragment that is accepted keeps it. -/
theorem reassembly_eq_iff (dir : Direction) (egress : Addr) (arrivals : List Arrival) {n : ℕ}
    (hn : 4 ∣ n) :
    (∀ i, n ≤ i → reassembly ((forwarded dir egress arrivals).map Prod.snd) i =
      reassembly ((forwarded dir egress arrivals).map Prod.fst) i) ↔
    ∀ a ∈ arrivals, ∀ pkt, sliceIPv4 a.fragment = some pkt → Accepts egress a.ct pkt dir →
      fragOffset pkt + 16 < n ∨ ChecksumStands dir egress pkt := by
  have hsame : ∀ x ∈ forwarded dir egress arrivals, SameCarried x.1 x.2 := by
    intro x hx
    obtain ⟨a, -, pkt, hslice, haccepts, rfl⟩ := mem_forwarded_iff.mp hx
    exact sameCarried_translate hslice haccepts.tcpPacket dir egress
  have heach : (∀ i, n ≤ i → reassembly ((forwarded dir egress arrivals).map Prod.snd) i =
      reassembly ((forwarded dir egress arrivals).map Prod.fst) i) ↔
      ∀ x ∈ forwarded dir egress arrivals, ∀ i, n ≤ i → carried x.2 i = carried x.1 i := by
    have hiff : ∀ i, reassembly ((forwarded dir egress arrivals).map Prod.snd) i =
        reassembly ((forwarded dir egress arrivals).map Prod.fst) i ↔
        ∀ x ∈ forwarded dir egress arrivals, carried x.2 i = carried x.1 i := by
      intro i
      rw [reassembly, reassembly, List.filterMap_map, List.filterMap_map]
      exact filterMap_eq_filterMap_iff fun x hx => (hsame x hx).isSome_eq i
    constructor
    · intro h x hx i hi
      exact (hiff i).mp (h i hi) x hx
    · intro h i hi
      exact (hiff i).mpr fun x hx => h x hx i hi
  rw [heach]
  constructor
  · intro h a ha pkt hslice haccepts
    have hx : (a.fragment, translate dir egress pkt) ∈ forwarded dir egress arrivals :=
      mem_forwarded_iff.mpr ⟨a, ha, pkt, hslice, haccepts, rfl⟩
    rw [← carried_translate_eq_iff hslice haccepts.tcpPacket dir egress hn]
    exact h (a.fragment, translate dir egress pkt) hx
  · intro h x hx
    obtain ⟨a, ha, pkt, hslice, haccepts, rfl⟩ := mem_forwarded_iff.mp hx
    have hkeep := h a ha pkt hslice haccepts
    rw [← carried_translate_eq_iff hslice haccepts.tcpPacket dir egress hn] at hkeep
    exact hkeep

/-- **The payload of a segment that arrives in fragments** is reassembled as it came exactly when
the checksum written into each accepted fragment falls into the TCP header or stands. -/
theorem reassembly_forwarded_iff (F : FragmentedSegment) (dir : Direction) (egress : Addr) :
    (∀ i, tcpHeaderLength F.segment ≤ i →
      reassembly ((forwarded dir egress F.arrivals).map Prod.snd) i =
        reassembly ((forwarded dir egress F.arrivals).map Prod.fst) i) ↔
    ∀ a ∈ F.arrivals, ∀ pkt, sliceIPv4 a.fragment = some pkt → Accepts egress a.ct pkt dir →
      fragOffset pkt + 16 < tcpHeaderLength F.segment ∨ ChecksumStands dir egress pkt :=
  reassembly_eq_iff dir egress F.arrivals (four_dvd_tcpHeaderLength F.segment)

/-- The first fragment of `zeroSegment`. -/
def firstFragment : Bytes :=
  [0x45, 0, 0, 44, 0, 7, 0x20, 0, 64, 6, 0, 0, 10, 10, 10, 2, 93, 184, 216, 34,
    0xC0, 0, 0x01, 0xBB, 0, 0, 0, 1, 0, 0, 0, 0, 0x50, 0x10, 0xFF, 0xFF, 0, 0, 0, 0, 0, 0, 0, 0]

/-- The last fragment of `zeroSegment`: 24 bytes of payload. -/
def lastFragment : Bytes :=
  [0x45, 0, 0, 44, 0, 7, 0, 3, 64, 6, 0, 0, 10, 10, 10, 2, 93, 184, 216, 34] ++
    List.replicate 24 0

/-- A segment of 48 bytes with a payload of zeros, in two fragments of 24 bytes each. -/
def zeroSegment : FragmentedSegment where
  segment := [0xC0, 0, 0x01, 0xBB, 0, 0, 0, 1, 0, 0, 0, 0, 0x50, 0x10, 0xFF, 0xFF, 0, 0, 0, 0] ++
    List.replicate 28 0
  header_ge := by decide
  header_le := by decide
  arrivals := [⟨firstFragment, 0, .empty⟩, ⟨lastFragment, 1, .empty⟩]
  wellFormed := by decide
  complete := by
    intro i
    rcases Nat.lt_or_ge i 48 with hlt | hge
    · revert i
      decide
    · have hpast : ∀ pkt, fragOffset pkt + totalLength pkt ≤ ihl pkt + 48 → carried pkt i = none :=
        fun pkt hle => carried_eq_none (hle.trans (Nat.add_le_add_left hge _))
      have hfirst := hpast firstFragment (by decide)
      have hlast := hpast lastFragment (by decide)
      simp [reassembly, hfirst, hlast, hge]
  more := by decide

/-- The exit writes a checksum into the payload of its last fragment. -/
theorem zeroSegment_payload_changed :
    ¬ ∀ i, tcpHeaderLength zeroSegment.segment ≤ i →
      reassembly ((forwarded .outbound sampleEgress zeroSegment.arrivals).map Prod.snd) i =
        reassembly ((forwarded .outbound sampleEgress zeroSegment.arrivals).map Prod.fst) i := by
  rw [reassembly_eq_iff .outbound sampleEgress zeroSegment.arrivals
    (four_dvd_tcpHeaderLength zeroSegment.segment)]
  intro h
  have htcp : TCPPacket lastFragment := ⟨by decide, by decide, by decide, by decide⟩
  have harrives : (⟨lastFragment, 1, .empty⟩ : Arrival) ∈ zeroSegment.arrivals :=
    List.mem_cons_of_mem _ List.mem_cons_self
  rcases h _ harrives lastFragment (by decide) ⟨by decide, htcp⟩ with hheader | ⟨hvalid, -⟩
  · revert hheader
    decide
  · revert hvalid
    unfold TCPChecksumValid
    decide

end OpenFlux.L3
