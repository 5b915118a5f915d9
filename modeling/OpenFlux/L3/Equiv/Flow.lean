import OpenFlux.Algorithm.OnesComplement
import OpenFlux.L3.Flow

/-!
# Correctness of the packet functions of the L3 exit

What each function leaves alone is a `Frame`: the address rewrites change four bytes, and
`fixChecksums` two bytes of the IP header and two bytes at offset 16 after it
(`frame_fixChecksums`).

The loops of the checksum functions compute the ones' complement sum (`toNat_foldCarries`,
`toNat_addWords`).  So the TCP checksum left behind is always valid
(`tcpChecksumValid_fixChecksums`).  The sum over the IP header stops after 20 bytes: the checksum of
a header with options is valid exactly when the options add nothing
(`ipChecksumValid_fixChecksums_iff`).
-/

namespace OpenFlux.L3

open Overwrite OnesComplement

/-! ### Reading -/

theorem byteAt_of_frame {S : Set ℕ} {pkt q : Bytes} (h : Frame S pkt q) {j : ℕ} (hj : j ∉ S) :
    byteAt q j = byteAt pkt j :=
  h.getD_eq hj 0

theorem byteAt_take {pkt : Bytes} {n j : ℕ} (hj : j < n) : byteAt (pkt.take n) j = byteAt pkt j := by
  rw [byteAt, byteAt, List.getD_eq_getElem?_getD, List.getD_eq_getElem?_getD,
    List.getElem?_take_of_lt hj]

theorem byteAt_overwrite {pkt : Bytes} {i : ℕ} {bs : Bytes} (h : i + bs.length ≤ pkt.length)
    {j : ℕ} (hj : j < bs.length) : byteAt (overwrite pkt i bs) (i + j) = bs.getD j 0 := by
  rw [byteAt, List.getD_eq_getElem?_getD, getElem?_overwrite h hj, ← List.getD_eq_getElem?_getD]

theorem ihl_of_frame {S : Set ℕ} {pkt q : Bytes} (h : Frame S pkt q) (h0 : 0 ∉ S) :
    ihl q = ihl pkt := by
  rw [ihl, ihl, byteAt_of_frame h h0]

theorem totalLength_lt (pkt : Bytes) : totalLength pkt < 65536 := by
  have hhi := (byteAt pkt 2).toNat_lt
  have hlo := (byteAt pkt 3).toNat_lt
  rw [totalLength, ← Nat.shiftLeft_add_eq_or_of_lt hlo, Nat.shiftLeft_eq]
  omega

theorem addrAt_of_frame {S : Set ℕ} {pkt q : Bytes} (h : Frame S pkt q) {i : ℕ}
    (hi : ∀ j, i ≤ j → j < i + 4 → j ∉ S) : addrAt q i = addrAt pkt i := by
  rw [addrAt, addrAt, byteAt_of_frame h (hi i (by omega) (by omega)),
    byteAt_of_frame h (hi (i + 1) (by omega) (by omega)),
    byteAt_of_frame h (hi (i + 2) (by omega) (by omega)),
    byteAt_of_frame h (hi (i + 3) (by omega) (by omega))]

theorem addrAt_overwrite {pkt : Bytes} {i : ℕ} {addr : Addr} (h : i + 4 ≤ pkt.length) :
    addrAt (overwrite pkt i addr.bytes) i = addr := by
  have hbyte : ∀ j < 4, byteAt (overwrite pkt i addr.bytes) (i + j) = addr.bytes.getD j 0 :=
    fun j hj => byteAt_overwrite h hj
  rw [addrAt, hbyte 1 (by omega), hbyte 2 (by omega), hbyte 3 (by omega)]
  have h0 := hbyte 0 (by omega)
  rw [Nat.add_zero] at h0
  rw [h0]
  rfl

/-! ### TCP packets -/

/-- What `extractFlowKey` asks of a packet. -/
structure TCPPacket (pkt : Bytes) : Prop where
  version : byteAt pkt 0 >>> 4 = 4
  ihl_ge : 20 ≤ ihl pkt
  length_ge : ihl pkt + 20 ≤ pkt.length
  proto : byteAt pkt 9 = 6

/-- The key `extractFlowKey` returns. -/
def keyAt (pkt : Bytes) : FlowKey where
  srcIP := ipU32 (addrAt pkt 12)
  dstIP := ipU32 (addrAt pkt 16)
  srcPort := beUint16 (byteAt pkt (ihl pkt)) (byteAt pkt (ihl pkt + 1))
  dstPort := beUint16 (byteAt pkt (ihl pkt + 2)) (byteAt pkt (ihl pkt + 3))
  proto := 6

theorem extractFlowKey_eq_some_iff {pkt : Bytes} {k : FlowKey} :
    extractFlowKey pkt = some k ↔ TCPPacket pkt ∧ k = keyAt pkt := by
  unfold extractFlowKey
  constructor
  · intro h
    split_ifs at h with hshort hlen hproto
    refine ⟨⟨?_, ?_, ?_, ?_⟩, (Option.some.inj h).symm⟩
    · by_contra hversion
      exact hshort (.inr hversion)
    · omega
    · omega
    · exact not_not.mp hproto
  · rintro ⟨htcp, rfl⟩
    have hihl := htcp.ihl_ge
    have hlength := htcp.length_ge
    have hshort : ¬ (pkt.length < 20 ∨ byteAt pkt 0 >>> 4 ≠ 4) := by
      rintro (hlt | hversion)
      · omega
      · exact hversion htcp.version
    rw [if_neg hshort, if_neg (by omega), if_neg (not_not.mpr htcp.proto)]
    rfl

/-- A change of the addresses and of bytes that hold no part of the key keeps the rest of it. -/
theorem TCPPacket.of_frame {S : Set ℕ} {pkt q : Bytes} (htcp : TCPPacket pkt) (h : Frame S pkt q)
    (h0 : 0 ∉ S) (h9 : 9 ∉ S) : TCPPacket q where
  version := by rw [byteAt_of_frame h h0, htcp.version]
  ihl_ge := by rw [ihl_of_frame h h0]; exact htcp.ihl_ge
  length_ge := by rw [ihl_of_frame h h0, h.length_eq]; exact htcp.length_ge
  proto := by rw [byteAt_of_frame h h9, htcp.proto]

/-! ### Sums -/

theorem toNat_word (hi lo : UInt8) :
    (hi.toUInt32 <<< 8 ||| lo.toUInt32).toNat = hi.toNat * 256 + lo.toNat := by
  have hhi := hi.toNat_lt
  have hlo := lo.toNat_lt
  have hshift : hi.toNat <<< 8 % 2 ^ 32 = hi.toNat <<< 8 := by
    rw [Nat.shiftLeft_eq]
    exact Nat.mod_eq_of_lt (by omega)
  simp only [UInt32.toNat_or, UInt32.toNat_shiftLeft, UInt8.toNat_toUInt32, UInt32.reduceToNat,
    Nat.reduceMod, hshift]
  rw [← Nat.shiftLeft_add_eq_or_of_lt hlo, Nat.shiftLeft_eq]

theorem toNat_highByte (hi : UInt8) : (hi.toUInt32 <<< 8).toNat = hi.toNat * 256 := by
  have hzero := toNat_word hi 0
  simpa using hzero

/-- The loop over the words adds their sum, when it does not overflow. -/
theorem toNat_addWords (b : Bytes) : ∀ sum : UInt32, sum.toNat + wordSum b < 2 ^ 32 →
    (addWords sum b).toNat = sum.toNat + wordSum b := by
  induction b using wordSum.induct with
  | case1 hi lo rest ih =>
    intro sum h
    rw [wordSum_cons_cons] at h ⊢
    have hadd : (sum + (hi.toUInt32 <<< 8 ||| lo.toUInt32)).toNat =
        sum.toNat + (hi.toNat * 256 + lo.toNat) := by
      have hlt : sum.toNat + (hi.toNat * 256 + lo.toNat) < 2 ^ 32 :=
        lt_of_le_of_lt (Nat.add_le_add_left (Nat.le_add_right _ _) _) h
      rw [UInt32.toNat_add, toNat_word, Nat.mod_eq_of_lt hlt]
    rw [addWords, ih _ (by rw [hadd]; omega), hadd]
    omega
  | case2 hi =>
    intro sum h
    rw [wordSum] at h ⊢
    rw [addWords, UInt32.toNat_add, toNat_highByte, Nat.mod_eq_of_lt h]
  | case3 =>
    intro sum h
    rfl

/-- The carry loop computes the end-around sum. -/
theorem toNat_foldCarries (sum : UInt32) : (foldCarries sum).toNat = endAround 65535 sum.toNat := by
  induction sum using foldCarries.induct with
  | case1 sum h ih =>
    rw [foldCarries, if_pos h, ih, toNat_low_add_high]
    exact endAround_fold 65535 sum.toNat
  | case2 sum h =>
    rw [foldCarries, if_neg h]
    have hzero := congrArg UInt32.toNat (not_not.mp h)
    rw [toNat_high] at hzero
    have hle : sum.toNat ≤ 65535 := by
      have hdiv : sum.toNat / 65536 = 0 := hzero
      omega
    rw [endAround_of_le hle]

/-- What both checksum functions return. -/
theorem toNat_complement (sum : UInt32) :
    (~~~ foldCarries sum).toUInt16.toNat = 65535 - endAround 65535 sum.toNat := by
  have hle := endAround_le (M := 65535) (by omega) sum.toNat
  rw [UInt32.toNat_toUInt16, UInt32.toNat_not, toNat_foldCarries]
  show (4294967296 - 1 - _) % 65536 = _
  omega

/-! ### Fields -/

theorem wordSum_putUint16 (v : UInt16) : wordSum (putUint16 v) = v.toNat := by
  have hval := toNat_beUint16 (v >>> 8).toUInt8 v.toUInt8
  rw [beUint16_putUint16] at hval
  rw [putUint16, wordSum_cons_cons, wordSum_nil]
  omega

/-- The word a stored word reads back as. -/
theorem toNat_overwrite_putUint16 {b : Bytes} {i : ℕ} (h : i + 2 ≤ b.length) (v : UInt16) :
    (byteAt (overwrite b i (putUint16 v)) i).toNat * 256 +
      (byteAt (overwrite b i (putUint16 v)) (i + 1)).toNat = v.toNat := by
  have hbyte : ∀ j < 2, byteAt (overwrite b i (putUint16 v)) (i + j) = (putUint16 v).getD j 0 :=
    fun j hj => byteAt_overwrite h hj
  have h0 := hbyte 0 (by omega)
  rw [Nat.add_zero] at h0
  have hword := wordSum_putUint16 v
  rw [putUint16, wordSum_cons_cons, wordSum_nil, Nat.add_zero] at hword
  rw [h0, hbyte 1 (by omega)]
  exact hword

/-- A word stored at an even position is one word of the sum. -/
theorem wordSum_overwrite {b : Bytes} {i : ℕ} (hi : 2 ∣ i) {w : Bytes} (hw : w.length = 2)
    (h : i + 2 ≤ b.length) :
    wordSum (overwrite b i w) = wordSum (overwrite b i [0, 0]) + wordSum w := by
  have hlen := length_take_of_fits h
  have hparts : ∀ w' : Bytes, w'.length = 2 → wordSum (overwrite b i w') =
      wordSum (b.take i) + wordSum w' + wordSum (b.drop (i + 2)) := by
    intro w' hw'
    have htwo : 2 ∣ (b.take i ++ w').length := by
      rw [List.length_append, hlen, hw']
      omega
    have hfirst : 2 ∣ (b.take i).length := by
      rw [hlen]
      exact hi
    rw [overwrite, hw', wordSum_append htwo, wordSum_append hfirst]
  rw [hparts w hw, hparts [0, 0] rfl]
  simp only [wordSum_cons_cons, wordSum_nil, UInt8.toNat_zero]
  omega

/-- The word a string holds at an even position. -/
theorem wordSum_eq {b : Bytes} {i : ℕ} (hi : 2 ∣ i) (h : i + 2 ≤ b.length) :
    wordSum b = wordSum (overwrite b i [0, 0]) +
      ((byteAt b i).toNat * 256 + (byteAt b (i + 1)).toNat) := by
  have hget : ∀ j < b.length, b[j]? = some (byteAt b j) := by
    intro j hj
    rw [byteAt, List.getD_eq_getElem?_getD, List.getElem?_eq_getElem hj, Option.getD_some]
  have hself : overwrite b i [byteAt b i, byteAt b (i + 1)] = b := by
    refine overwrite_eq_self h fun j hj => ?_
    rw [hget (i + j) (lt_of_lt_of_le (Nat.add_lt_add_left hj i) h)]
    match j, hj with
    | 0, _ => rfl
    | 1, _ => rfl
  have hword := wordSum_overwrite (w := [byteAt b i, byteAt b (i + 1)]) hi rfl h
  rw [hself] at hword
  rw [hword, wordSum_cons_cons, wordSum_nil, Nat.add_zero]

/-! ### What `fixChecksums` changes -/

/-- The positions of the IP checksum. -/
def ipChecksumField : Set ℕ := Set.Ico 10 12

/-- The positions of the checksum of a TCP header after an IP header of length `n`. -/
def tcpChecksumField (n : ℕ) : Set ℕ := Set.Ico (n + 16) (n + 18)

theorem frame_putUint16 {b : Bytes} {i : ℕ} (h : i + 2 ≤ b.length) (v : UInt16) :
    Frame (Set.Ico i (i + 2)) b (overwrite b i (putUint16 v)) := by
  have hlen : (putUint16 v).length = 2 := rfl
  have hfits : i + (putUint16 v).length ≤ b.length := hlen ▸ h
  have hframe := frame_overwrite hfits
  rwa [hlen] at hframe

theorem fixIPChecksum_eq {pkt : Bytes} (h : 20 ≤ pkt.length) :
    fixIPChecksum pkt =
      overwrite pkt 10 (putUint16 (onesComplementSum ((overwrite pkt 10 [0, 0]).take 20))) :=
  overwrite_overwrite rfl (by rw [List.length_cons, List.length_singleton]; omega)

theorem frame_fixIPChecksum {pkt : Bytes} (h : 20 ≤ pkt.length) :
    Frame ipChecksumField pkt (fixIPChecksum pkt) := by
  rw [fixIPChecksum_eq h]
  exact frame_putUint16 (by omega) _

theorem fixTCPChecksum_eq {pkt : Bytes} (h : ihl pkt + 20 ≤ pkt.length) :
    fixTCPChecksum pkt = overwrite pkt (ihl pkt + 16) (putUint16
      (tcpChecksum ((overwrite pkt (ihl pkt + 16) [0, 0]).drop (ihl pkt)) (addrAt pkt 12)
        (addrAt pkt 16))) :=
  overwrite_overwrite rfl (by rw [List.length_cons, List.length_singleton]; omega)

theorem frame_fixTCPChecksum {pkt : Bytes} (h : ihl pkt + 20 ≤ pkt.length) :
    Frame (tcpChecksumField (ihl pkt)) pkt (fixTCPChecksum pkt) := by
  rw [fixTCPChecksum_eq h]
  exact frame_putUint16 (by omega) _

theorem not_mem_ipChecksumField {j : ℕ} (hj : j < 10 ∨ 12 ≤ j) : j ∉ ipChecksumField := by
  rintro ⟨h1, h2⟩
  omega

theorem not_mem_tcpChecksumField {n j : ℕ} (hj : j < n + 16 ∨ n + 18 ≤ j) :
    j ∉ tcpChecksumField n := by
  rintro ⟨h1, h2⟩
  omega

theorem TCPPacket.length_ge_twenty {pkt : Bytes} (h : TCPPacket pkt) : 20 ≤ pkt.length := by
  have h1 := h.ihl_ge
  have h2 := h.length_ge
  omega

theorem TCPPacket.fixIPChecksum {pkt : Bytes} (h : TCPPacket pkt) :
    TCPPacket (fixIPChecksum pkt) ∧ ihl (L3.fixIPChecksum pkt) = ihl pkt := by
  have hframe := frame_fixIPChecksum h.length_ge_twenty
  have h0 := not_mem_ipChecksumField (j := 0) (.inl (by omega))
  have h9 := not_mem_ipChecksumField (j := 9) (.inl (by omega))
  exact ⟨h.of_frame hframe h0 h9, ihl_of_frame hframe h0⟩

/-- On a TCP packet `fixChecksums` sets both checksums. -/
theorem fixChecksums_of_tcp {pkt : Bytes} (h : TCPPacket pkt) :
    fixChecksums pkt = fixTCPChecksum (fixIPChecksum pkt) := by
  obtain ⟨htcp, -⟩ := h.fixIPChecksum
  have hshort : ¬ (pkt.length < 20 ∨ byteAt pkt 0 >>> 4 ≠ 4) := by
    rintro (hlt | hversion)
    · exact absurd h.length_ge_twenty (by omega)
    · exact hversion h.version
  have hfits : ¬ (ihl (fixIPChecksum pkt) < 20 ∨
      (fixIPChecksum pkt).length < ihl (fixIPChecksum pkt) + 20) := by
    have h1 := htcp.ihl_ge
    have h2 := htcp.length_ge
    omega
  unfold fixChecksums
  rw [if_neg hshort]
  dsimp only
  rw [if_neg (not_not.mpr htcp.proto), if_neg hfits]

/-- **What `fixChecksums` changes** in a TCP packet: the two checksums. -/
theorem frame_fixChecksums {pkt : Bytes} (h : TCPPacket pkt) :
    Frame (ipChecksumField ∪ tcpChecksumField (ihl pkt)) pkt (fixChecksums pkt) := by
  obtain ⟨htcp, hihl⟩ := h.fixIPChecksum
  have hframe := frame_fixTCPChecksum htcp.length_ge
  rw [hihl] at hframe
  rw [fixChecksums_of_tcp h]
  exact (frame_fixIPChecksum h.length_ge_twenty).trans hframe

/-! ### Valid checksums -/

/-- The pseudo header of a TCP segment of `length` bytes. -/
def pseudoHeader (src dst : Addr) (length : ℕ) : Bytes :=
  src.bytes ++ dst.bytes ++ [0, 6] ++ putUint16 (UInt16.ofNat length)

/-- The ones' complement sum over the whole IP header is all ones. -/
def IPChecksumValid (pkt : Bytes) : Prop :=
  endAround 0xFFFF (wordSum (pkt.take (ihl pkt))) = 0xFFFF

/-- The ones' complement sum over the pseudo header and the segment is all ones. -/
def TCPChecksumValid (pkt : Bytes) : Prop :=
  endAround 0xFFFF (wordSum (pseudoHeader (addrAt pkt 12) (addrAt pkt 16) (pkt.length - ihl pkt) ++
    pkt.drop (ihl pkt))) = 0xFFFF

theorem wordSum_pseudoHeader (src dst : Addr) {length : ℕ} (hlength : length < 65536) :
    wordSum (pseudoHeader src dst length) =
      src.a.toNat * 256 + src.b.toNat + (src.c.toNat * 256 + src.d.toNat) +
        (dst.a.toNat * 256 + dst.b.toNat) + (dst.c.toNat * 256 + dst.d.toNat) + 6 + length := by
  have hfirst : 2 ∣ (src.bytes ++ dst.bytes ++ [0, 6]).length := by
    show 2 ∣ 10
    omega
  have hlen : (UInt16.ofNat length).toNat = length := by
    rw [UInt16.toNat_ofNat']
    exact Nat.mod_eq_of_lt hlength
  have hten : wordSum (src.bytes ++ dst.bytes ++ [0, 6]) =
      src.a.toNat * 256 + src.b.toNat + (src.c.toNat * 256 + src.d.toNat +
        (dst.a.toNat * 256 + dst.b.toNat + (dst.c.toNat * 256 + dst.d.toNat +
          (0 * 256 + 6 + 0)))) := rfl
  rw [pseudoHeader, wordSum_append hfirst, wordSum_putUint16, hlen, hten]
  omega

/-- The sum before the loop of `tcpChecksum` is the sum of the pseudo header. -/
theorem toNat_pseudoSum (src dst : Addr) {length : ℕ} (hlength : length < 65536) :
    (pseudoSum length src dst).toNat = wordSum (pseudoHeader src dst length) := by
  have hbyte : ∀ b : UInt8, b.toNat ≤ 255 := fun b => Nat.le_of_lt_succ b.toNat_lt
  have h1 := hbyte src.a
  have h2 := hbyte src.b
  have h3 := hbyte src.c
  have h4 := hbyte src.d
  have h5 := hbyte dst.a
  have h6 := hbyte dst.b
  have h7 := hbyte dst.c
  have h8 := hbyte dst.d
  have hlen : (UInt32.ofNat length).toNat = length := by
    rw [UInt32.toNat_ofNat']
    exact Nat.mod_eq_of_lt (by omega)
  have hsix : (6 : UInt32).toNat = 6 := rfl
  rw [wordSum_pseudoHeader src dst hlength, pseudoSum]
  simp only [UInt32.toNat_add, toNat_word, hlen, hsix, UInt32.toNat_zero, Nat.zero_add,
    Nat.mod_add_mod]
  exact Nat.mod_eq_of_lt (by omega)

/-- A checksum word in the place of a zero word completes the sum. -/
theorem endAround_overwrite_complement {b : Bytes} {i : ℕ} (hi : 2 ∣ i) (h : i + 2 ≤ b.length)
    (n : ℕ) {v : UInt16}
    (hv : v.toNat = 65535 - endAround 65535 (n + wordSum (overwrite b i [0, 0]))) :
    endAround 65535 (n + wordSum (overwrite b i (putUint16 v))) = 65535 := by
  have hlen : (putUint16 v).length = 2 := rfl
  rw [wordSum_overwrite hi hlen h, wordSum_putUint16, hv, ← Nat.add_assoc]
  exact endAround_add_complement (by omega) _

/-- The first 20 bytes of the IP header sum up to all ones. -/
theorem endAround_fixIPChecksum {pkt : Bytes} (h : 20 ≤ pkt.length) :
    endAround 65535 (wordSum ((fixIPChecksum pkt).take 20)) = 65535 := by
  have hlen : (pkt.take 20).length = 20 := by rw [List.length_take]; omega
  have hclear : (overwrite pkt 10 [0, 0]).take 20 = overwrite (pkt.take 20) 10 [0, 0] :=
    take_overwrite (by decide) (by rw [List.length_cons, List.length_singleton]; omega)
  have hsum : wordSum (overwrite (pkt.take 20) 10 [0, 0]) < 2 ^ 32 := by
    have hle := wordSum_le (overwrite (pkt.take 20) 10 [0, 0])
    rw [length_overwrite (by rw [hlen]; decide), hlen] at hle
    omega
  have hfield : (fixIPChecksum pkt).take 20 = overwrite (pkt.take 20) 10
      (putUint16 (onesComplementSum ((overwrite pkt 10 [0, 0]).take 20))) := by
    have hle : ∀ v : UInt16, 10 + (putUint16 v).length ≤ 20 := fun v => by
      have htwo : (putUint16 v).length = 2 := rfl
      omega
    rw [fixIPChecksum_eq h]
    exact take_overwrite (hle _) ((hle _).trans h)
  have hzero : (0 : UInt32).toNat = 0 := rfl
  have hvalue : (onesComplementSum ((overwrite pkt 10 [0, 0]).take 20)).toNat =
      65535 - endAround 65535 (0 + wordSum (overwrite (pkt.take 20) 10 [0, 0])) := by
    rw [onesComplementSum, toNat_complement, hclear,
      toNat_addWords _ _ (by rw [hzero, Nat.zero_add]; exact hsum), hzero]
  have hall := endAround_overwrite_complement (by omega) (by omega) 0 hvalue
  rwa [Nat.zero_add, ← hfield] at hall

/-- The checksum field of a TCP packet, cleared in the packet or in its segment. -/
theorem drop_overwrite_tcpChecksum {pkt : Bytes} (h : TCPPacket pkt) {w : Bytes}
    (hw : w.length = 2) :
    (overwrite pkt (ihl pkt + 16) w).drop (ihl pkt) = overwrite (pkt.drop (ihl pkt)) 16 w := by
  have hge := h.length_ge
  rw [drop_overwrite (Nat.le_add_right _ _) (by rw [hw]; omega), Nat.add_sub_cancel_left]

theorem wordSum_pseudoHeader_append (src dst : Addr) (length : ℕ) (b : Bytes) :
    wordSum (pseudoHeader src dst length ++ b) =
      wordSum (pseudoHeader src dst length) + wordSum b := by
  refine wordSum_append ?_ b
  show 2 ∣ 12
  omega

/-- The sum over the pseudo header and the segment with the checksum field cleared. -/
def clearedSum (pkt : Bytes) : ℕ :=
  wordSum (pseudoHeader (addrAt pkt 12) (addrAt pkt 16) (pkt.length - ihl pkt)) +
    wordSum (overwrite (pkt.drop (ihl pkt)) 16 [0, 0])

/-- The checksum in the TCP header. -/
def tcpField (pkt : Bytes) : ℕ :=
  (byteAt pkt (ihl pkt + 16)).toNat * 256 + (byteAt pkt (ihl pkt + 17)).toNat

/-- What `fixChecksums` writes into the TCP header. -/
theorem toNat_tcpChecksum {pkt : Bytes} (h : TCPPacket pkt) (hlength : pkt.length < 65536) :
    (tcpChecksum ((overwrite pkt (ihl pkt + 16) [0, 0]).drop (ihl pkt)) (addrAt pkt 12)
      (addrAt pkt 16)).toNat = 65535 - endAround 65535 (clearedSum pkt) := by
  have hge := h.length_ge
  have hlen : (pkt.drop (ihl pkt)).length = pkt.length - ihl pkt := List.length_drop
  have hseg : (overwrite (pkt.drop (ihl pkt)) 16 [0, 0]).length = pkt.length - ihl pkt := by
    rw [length_overwrite (by rw [List.length_cons, List.length_singleton]; omega), hlen]
  have hshort : pkt.length - ihl pkt < 65536 := by omega
  have hpseudo := toNat_pseudoSum (addrAt pkt 12) (addrAt pkt 16) hshort
  have hsum := wordSum_le (overwrite (pkt.drop (ihl pkt)) 16 [0, 0])
  rw [hseg] at hsum
  have hhead := wordSum_le (pseudoHeader (addrAt pkt 12) (addrAt pkt 16) (pkt.length - ihl pkt))
  have htwelve : (pseudoHeader (addrAt pkt 12) (addrAt pkt 16) (pkt.length - ihl pkt)).length = 12 :=
    rfl
  rw [htwelve] at hhead
  rw [drop_overwrite_tcpChecksum h rfl, tcpChecksum, toNat_complement, hseg,
    toNat_addWords _ _ ?_, hpseudo]
  · rfl
  · rw [hpseudo]
    omega

/-- **The TCP checksum is valid** in whatever `fixChecksums` leaves behind of a TCP packet. -/
theorem tcpChecksumValid_fixTCPChecksum {pkt : Bytes} (h : TCPPacket pkt)
    (hlength : pkt.length < 65536) : TCPChecksumValid (fixTCPChecksum pkt) := by
  have hge := h.length_ge
  have hihl := h.ihl_ge
  have hframe := frame_fixTCPChecksum hge
  have hout : ∀ j < 36, j ∉ tcpChecksumField (ihl pkt) := fun j hj =>
    not_mem_tcpChecksumField (.inl (by omega))
  have hlen : (pkt.drop (ihl pkt)).length = pkt.length - ihl pkt := List.length_drop
  unfold TCPChecksumValid
  rw [ihl_of_frame hframe (hout 0 (by omega)), hframe.length_eq,
    addrAt_of_frame hframe fun j _ hj => hout j (by omega),
    addrAt_of_frame hframe fun j _ hj => hout j (by omega),
    fixTCPChecksum_eq hge, drop_overwrite_tcpChecksum h rfl, wordSum_pseudoHeader_append]
  exact endAround_overwrite_complement (by omega) (by omega) _ (toNat_tcpChecksum h hlength)

/-- The checksum is the one written when the sum is all ones and the field is not the second zero
of the ones' complement. -/
theorem tcpField_eq_complement_iff {pkt : Bytes} (h : TCPPacket pkt)
    (hlength : pkt.length < 65536) :
    tcpField pkt = 65535 - endAround 65535 (clearedSum pkt) ↔
      TCPChecksumValid pkt ∧ tcpField pkt ≠ 65535 := by
  have hge := h.length_ge
  have hpos : 0 < clearedSum pkt := by
    rw [clearedSum, wordSum_pseudoHeader _ _ (by omega)]
    omega
  have hle : tcpField pkt ≤ 65535 := by
    have hhi := (byteAt pkt (ihl pkt + 16)).toNat_lt
    have hlo := (byteAt pkt (ihl pkt + 17)).toNat_lt
    unfold tcpField
    omega
  -- the sum over the whole segment is the cleared one and the field
  have hsplit := wordSum_eq (b := pkt.drop (ihl pkt)) (i := 16) (by omega)
    (by rw [List.length_drop]; omega)
  have hdrop : ∀ j, byteAt (pkt.drop (ihl pkt)) j = byteAt pkt (ihl pkt + j) := by
    intro j
    rw [byteAt, byteAt, List.getD_eq_getElem?_getD, List.getD_eq_getElem?_getD, List.getElem?_drop]
  rw [hdrop, hdrop] at hsplit
  have hvalid : TCPChecksumValid pkt ↔ 65535 ∣ clearedSum pkt + tcpField pkt := by
    unfold TCPChecksumValid
    rw [wordSum_pseudoHeader_append, hsplit, ← Nat.add_assoc, endAround_eq_iff (by omega)]
    exact and_iff_right (Nat.add_pos_left hpos _)
  rw [hvalid]
  exact eq_complement_iff (by omega) hpos hle

theorem tcpField_fixTCPChecksum {pkt : Bytes} (h : TCPPacket pkt) (hlength : pkt.length < 65536) :
    tcpField (fixTCPChecksum pkt) = 65535 - endAround 65535 (clearedSum pkt) := by
  have hge := h.length_ge
  have hihl := h.ihl_ge
  have hsame : ihl (fixTCPChecksum pkt) = ihl pkt :=
    ihl_of_frame (frame_fixTCPChecksum hge) (not_mem_tcpChecksumField (.inl (by omega)))
  rw [← toNat_tcpChecksum h hlength, tcpField, hsame, fixTCPChecksum_eq hge]
  exact toNat_overwrite_putUint16 (by omega) _

/-- The field keeps its two bytes exactly when they already were the checksum. -/
theorem fixTCPChecksum_field_eq_iff {pkt : Bytes} (h : TCPPacket pkt)
    (hlength : pkt.length < 65536) :
    (byteAt (fixTCPChecksum pkt) (ihl pkt + 16) = byteAt pkt (ihl pkt + 16) ∧
      byteAt (fixTCPChecksum pkt) (ihl pkt + 17) = byteAt pkt (ihl pkt + 17)) ↔
    TCPChecksumValid pkt ∧
      ¬ (byteAt pkt (ihl pkt + 16) = 0xFF ∧ byteAt pkt (ihl pkt + 17) = 0xFF) := by
  have hge := h.length_ge
  have hihl := h.ihl_ge
  have hx := (byteAt pkt (ihl pkt + 16)).toNat_lt
  have hy := (byteAt pkt (ihl pkt + 17)).toNat_lt
  have hx' := (byteAt (fixTCPChecksum pkt) (ihl pkt + 16)).toNat_lt
  have hy' := (byteAt (fixTCPChecksum pkt) (ihl pkt + 17)).toNat_lt
  have hsame : ihl (fixTCPChecksum pkt) = ihl pkt :=
    ihl_of_frame (frame_fixTCPChecksum hge) (not_mem_tcpChecksumField (.inl (by omega)))
  have hones : ¬ (byteAt pkt (ihl pkt + 16) = 0xFF ∧ byteAt pkt (ihl pkt + 17) = 0xFF) ↔
      tcpField pkt ≠ 65535 := by
    have h255 : (0xFF : UInt8).toNat = 255 := rfl
    rw [← UInt8.toNat_inj, ← UInt8.toNat_inj, h255, tcpField]
    omega
  have hfield := tcpField_fixTCPChecksum h hlength
  rw [hones, ← tcpField_eq_complement_iff h hlength, ← hfield, ← UInt8.toNat_inj,
    ← UInt8.toNat_inj, tcpField, tcpField, hsame]
  omega

theorem tcpChecksumValid_fixChecksums {pkt : Bytes} (h : TCPPacket pkt)
    (hlength : pkt.length < 65536) : TCPChecksumValid (fixChecksums pkt) := by
  obtain ⟨htcp, -⟩ := h.fixIPChecksum
  rw [fixChecksums_of_tcp h]
  refine tcpChecksumValid_fixTCPChecksum htcp ?_
  rw [(frame_fixIPChecksum h.length_ge_twenty).length_eq]
  exact hlength

/-- The IP options. -/
def options (pkt : Bytes) : Bytes := (pkt.drop 20).take (ihl pkt - 20)

/-- **The IP checksum is valid** exactly when the options add nothing to it. -/
theorem ipChecksumValid_fixChecksums_iff {pkt : Bytes} (h : TCPPacket pkt) :
    IPChecksumValid (fixChecksums pkt) ↔ 65535 ∣ wordSum (options pkt) := by
  have hihl := h.ihl_ge
  have hlen := h.length_ge
  have hframe := frame_fixChecksums h
  have hout : ∀ j, j ∉ ipChecksumField → j < ihl pkt →
      j ∉ ipChecksumField ∪ tcpChecksumField (ihl pkt) := by
    rintro j hj hlt (hip | htcp)
    · exact hj hip
    · exact not_mem_tcpChecksumField (.inl (by omega)) htcp
  have hzero : ihl (fixChecksums pkt) = ihl pkt :=
    ihl_of_frame hframe (hout 0 (not_mem_ipChecksumField (.inl (by omega))) (by omega))
  -- the first 20 bytes are those of `fixIPChecksum`, the rest are the options
  have hfirst : (fixChecksums pkt).take 20 = (fixIPChecksum pkt).take 20 := by
    obtain ⟨htcp, hsame⟩ := h.fixIPChecksum
    have htcpFrame := frame_fixTCPChecksum htcp.length_ge
    rw [hsame] at htcpFrame
    rw [fixChecksums_of_tcp h]
    have hpart := htcpFrame.take_drop_eq (i := 0) (n := 20) fun j _ hj =>
      not_mem_tcpChecksumField (.inl (by omega))
    rwa [List.drop_zero, List.drop_zero] at hpart
  have hrest : ((fixChecksums pkt).drop 20).take (ihl pkt - 20) = options pkt :=
    hframe.take_drop_eq fun j hj hlt =>
      hout j (not_mem_ipChecksumField (.inr (by omega))) (by omega)
  have hsplit : (fixChecksums pkt).take (ihl pkt) =
      (fixChecksums pkt).take 20 ++ ((fixChecksums pkt).drop 20).take (ihl pkt - 20) := by
    rw [← List.take_add, Nat.add_sub_cancel' hihl]
  have htwenty : ((fixIPChecksum pkt).take 20).length = 20 := by
    rw [List.length_take, (frame_fixIPChecksum h.length_ge_twenty).length_eq]
    omega
  have heven : 2 ∣ ((fixIPChecksum pkt).take 20).length := by
    rw [htwenty]
    omega
  unfold IPChecksumValid
  rw [hzero, hsplit, hfirst, hrest, wordSum_append heven, endAround_eq_iff (by omega)]
  obtain ⟨hpos, hdvd⟩ := (endAround_eq_iff (by omega)).mp
    (endAround_fixIPChecksum h.length_ge_twenty)
  rw [Nat.dvd_add_right hdvd]
  exact ⟨fun hboth => hboth.2, fun hopt => ⟨by omega, hopt⟩⟩

end OpenFlux.L3
