import OpenFlux.L3.Checked
import OpenFlux.L3.Equiv.Exit

/-!
# No access outside the packet

Each checked function returns what the function of `L3.Flow` or `L3.Exit` does, whatever the bytes:
no index or slice expression panics.  The checks of the source are in front of the accesses they
cover, or in a caller: `sliceIPv4` leaves at least 20 bytes for the accesses to the IP header, and
`extractFlowKey` 40 for the byte 33 of the sampled message.
-/

namespace OpenFlux.L3.Checked

open Overwrite Slice

variable {pkt : Bytes}

theorem index_byteAt {i : ℕ} (h : i < pkt.length) : Slice.index pkt i = some (byteAt pkt i) :=
  index_eq h

/-- Every version check is behind a check of the length. -/
theorem notIPv4_eq (pkt : Bytes) :
    notIPv4 pkt = some (decide (pkt.length < 20 ∨ byteAt pkt 0 >>> 4 ≠ 4)) := by
  unfold notIPv4
  by_cases hlen : pkt.length < 20
  · rw [if_pos hlen, decide_eq_true (.inl hlen)]
    rfl
  · rw [if_neg hlen, index_byteAt (by omega), decide_eq_decide.mpr (or_iff_right hlen)]
    rfl

/-- The guard in front of a function that leaves every other packet alone. -/
theorem notIPv4_bind {β : Type} (pkt : Bytes) (a k : Option β) :
    ((notIPv4 pkt).bind fun b => if b = true then a else k) =
      if pkt.length < 20 ∨ byteAt pkt 0 >>> 4 ≠ 4 then a else k := by
  simp only [notIPv4_eq, Option.bind_some, decide_eq_true_eq]

theorem ihl_eq (h : 0 < pkt.length) : ihl pkt = some (L3.ihl pkt) := by
  simp [ihl, L3.ihl, index_byteAt h]

theorem sliceIPv4_eq (pkt : Bytes) : sliceIPv4 pkt = some (L3.sliceIPv4 pkt) := by
  unfold sliceIPv4 L3.sliceIPv4
  dsimp only [Option.bind_eq_bind]
  rw [notIPv4_bind]
  by_cases hip : pkt.length < 20 ∨ byteAt pkt 0 >>> 4 ≠ 4
  · rw [if_pos hip, if_pos hip]
    rfl
  · have hlen : 20 ≤ pkt.length := Nat.le_of_not_lt (not_or.mp hip).1
    have htotal : (byteAt pkt 2).toNat <<< 8 ||| (byteAt pkt 3).toNat = totalLength pkt := rfl
    rw [if_neg hip, if_neg hip, ihl_eq (by omega), index_byteAt (i := 2) (by omega),
      index_byteAt (i := 3) (by omega)]
    dsimp only [Option.bind_some, Option.pure_def]
    rw [htotal]
    by_cases hihl : L3.ihl pkt < 20 ∨ pkt.length < L3.ihl pkt
    · rw [if_pos hihl, if_pos hihl]
    · rw [if_neg hihl, if_neg hihl]
      by_cases htot : totalLength pkt < L3.ihl pkt ∨ pkt.length < totalLength pkt
      · rw [if_pos htot, if_pos htot]
      · rw [if_neg htot, if_neg htot,
          slice_eq (Nat.zero_le _) (Nat.le_of_not_lt (not_or.mp htot).2)]
        rfl

/-! ### Words -/

theorem index_drop_take {i j k : ℕ} (hj : j ≤ pkt.length) (hk : i + k < j) :
    Slice.index ((pkt.take j).drop i) k = some (byteAt pkt (i + k)) := by
  rw [Slice.index, List.getElem?_drop, List.getElem?_take_of_lt hk]
  exact index_byteAt (by omega)

theorem slice_uint16 (i : ℕ) {j : ℕ} (hij : j = i + 2) (hj : j ≤ pkt.length) :
    ∃ b, slice pkt i j = some b ∧
      uint16 b = some (beUint16 (byteAt pkt i) (byteAt pkt (i + 1))) := by
  refine ⟨_, slice_eq (by omega) hj, ?_⟩
  unfold uint16
  rw [index_drop_take hj (by omega), index_drop_take hj (by omega)]
  rfl

theorem slice_uint32 (i : ℕ) {j : ℕ} (hij : j = i + 4) (hj : j ≤ pkt.length) :
    ∃ b, slice pkt i j = some b ∧ uint32 b = some (beUint32 (byteAt pkt i) (byteAt pkt (i + 1))
      (byteAt pkt (i + 2)) (byteAt pkt (i + 3))) := by
  refine ⟨_, slice_eq (by omega) hj, ?_⟩
  unfold uint32
  rw [index_drop_take hj (by omega), index_drop_take hj (by omega), index_drop_take hj (by omega),
    index_drop_take hj (by omega)]
  rfl

theorem addrAt_eq {i : ℕ} (h : i + 4 ≤ pkt.length) : addrAt pkt i = some (L3.addrAt pkt i) := by
  unfold addrAt
  rw [slice_eq (by omega) h]
  simp only [Option.bind_eq_bind, Option.bind_some]
  rw [index_drop_take h (by omega), index_drop_take h (by omega), index_drop_take h (by omega),
    index_drop_take h (by omega)]
  rfl

theorem extractFlowKey_eq (pkt : Bytes) : extractFlowKey pkt = some (L3.extractFlowKey pkt) := by
  unfold extractFlowKey L3.extractFlowKey
  dsimp only [Option.bind_eq_bind]
  rw [notIPv4_bind]
  by_cases hip : pkt.length < 20 ∨ byteAt pkt 0 >>> 4 ≠ 4
  · rw [if_pos hip, if_pos hip]
    rfl
  · have hlen : 20 ≤ pkt.length := Nat.le_of_not_lt (not_or.mp hip).1
    rw [if_neg hip, if_neg hip, ihl_eq (by omega), index_byteAt (i := 9) (by omega)]
    dsimp only [Option.bind_some, Option.pure_def]
    by_cases hihl : L3.ihl pkt < 20 ∨ pkt.length < L3.ihl pkt + 20
    · rw [if_pos hihl, if_pos hihl]
    · rw [if_neg hihl, if_neg hihl]
      by_cases hproto : byteAt pkt 9 ≠ 6
      · rw [if_pos hproto, if_pos hproto]
      · have hports : L3.ihl pkt + 20 ≤ pkt.length := Nat.le_of_not_lt (not_or.mp hihl).2
        obtain ⟨src, hsrc, hsrcIP⟩ := slice_uint32 12 rfl (by omega : 16 ≤ pkt.length)
        obtain ⟨dst, hdst, hdstIP⟩ := slice_uint32 16 rfl (by omega : 20 ≤ pkt.length)
        obtain ⟨sport, hsport, hsrcPort⟩ :=
          slice_uint16 (L3.ihl pkt) rfl (by omega : L3.ihl pkt + 2 ≤ pkt.length)
        obtain ⟨dport, hdport, hdstPort⟩ :=
          slice_uint16 (L3.ihl pkt + 2) rfl (by omega : L3.ihl pkt + 4 ≤ pkt.length)
        rw [if_neg hproto, if_neg hproto, hsrc, Option.bind_some, hsrcIP, Option.bind_some, hdst,
          Option.bind_some, hdstIP, Option.bind_some, hsport, Option.bind_some, hsrcPort,
          Option.bind_some, hdport, Option.bind_some, hdstPort, Option.bind_some]

theorem isTCPClosing_eq (h : 0 < pkt.length) : isTCPClosing pkt = some (L3.isTCPClosing pkt) := by
  unfold isTCPClosing L3.isTCPClosing
  rw [ihl_eq h]
  dsimp only [Option.bind_eq_bind, Option.bind_some, Option.pure_def]
  by_cases hlen : pkt.length < L3.ihl pkt + 14
  · rw [if_pos hlen, if_pos hlen]
  · rw [if_neg hlen, if_neg hlen, index_byteAt (Nat.lt_of_succ_le (Nat.le_of_not_lt hlen)),
      Option.bind_some]

theorem isTCPRST_eq (pkt : Bytes) : isTCPRST pkt = some (L3.isTCPRST pkt) := by
  unfold isTCPRST L3.isTCPRST
  dsimp only [Option.bind_eq_bind]
  rw [notIPv4_bind]
  by_cases hip : pkt.length < 20 ∨ byteAt pkt 0 >>> 4 ≠ 4
  · rw [if_pos hip, if_pos (hip.imp_right .inl)]
    rfl
  · have hlen : 20 ≤ pkt.length := Nat.le_of_not_lt (not_or.mp hip).1
    rw [if_neg hip, ihl_eq (by omega), index_byteAt (i := 9) (by omega), Option.bind_some,
      Option.bind_some]
    by_cases hproto : byteAt pkt 9 ≠ 6
    · rw [if_pos hproto, if_pos (.inr (.inr hproto))]
      rfl
    · rw [if_neg hproto, if_neg fun h => (or_assoc.mpr h).elim hip hproto]
      by_cases hflags : pkt.length < L3.ihl pkt + 14
      · rw [if_pos hflags, if_pos hflags]
        rfl
      · rw [if_neg hflags, if_neg hflags,
          index_byteAt (Nat.lt_of_succ_le (Nat.le_of_not_lt hflags))]
        rfl

/-! ### Rewriting -/

theorem rewriteSNAT_eq (h : 16 ≤ pkt.length) (newSrc : Addr) :
    rewriteSNAT pkt newSrc = some (L3.rewriteSNAT pkt newSrc) := copyTo_eq (by omega) h

theorem rewriteDNAT_eq (h : 20 ≤ pkt.length) (newDst : Addr) :
    rewriteDNAT pkt newDst = some (L3.rewriteDNAT pkt newDst) := copyTo_eq (by omega) h

theorem drop_eq_byteAt {b : Bytes} {i : ℕ} (h : i < b.length) :
    b.drop i = byteAt b i :: b.drop (i + 1) := by
  rw [List.drop_eq_getElem_cons h, byteAt, List.getD_eq_getElem?_getD, List.getElem?_eq_getElem h,
    Option.getD_some]

/-- The index loop reads the words of what is left from `i` on. -/
theorem addWords_eq (b : Bytes) (sum : UInt32) (i : ℕ) :
    addWords b sum i = some (L3.addWords sum (b.drop i)) := by
  induction hn : b.length - i using Nat.strongRecOn generalizing sum i with
  | ind n ih =>
    rw [addWords]
    split_ifs with htwo hone
    · rw [drop_eq_byteAt (by omega : i < b.length), drop_eq_byteAt htwo, index_byteAt htwo,
        index_byteAt (by omega : i < b.length)]
      simp only [Option.bind_eq_bind, Option.bind_some]
      rw [ih _ (by omega) _ _ rfl]
      rfl
    · rw [drop_eq_byteAt hone, index_byteAt hone, List.drop_eq_nil_of_le (by omega)]
      rfl
    · rw [List.drop_eq_nil_of_le (by omega)]
      rfl

theorem onesComplementSum_eq (b : Bytes) :
    onesComplementSum b = some (L3.onesComplementSum b) := by
  rw [onesComplementSum, addWords_eq]
  rfl

theorem tcpChecksum_eq (tcp : Bytes) (src dst : Addr) :
    tcpChecksum tcp src dst = some (L3.tcpChecksum tcp src dst) := by
  rw [tcpChecksum, addWords_eq]
  rfl

theorem length_overwrite_pair {i : ℕ} {v w : UInt8} (h : i + 2 ≤ pkt.length) :
    (overwrite pkt i [v, w]).length = pkt.length := length_overwrite h

/-- Each store of `fixChecksums` is behind the check of the length in front of its part. -/
theorem fixChecksums_eq (pkt : Bytes) : fixChecksums pkt = some (L3.fixChecksums pkt) := by
  unfold fixChecksums L3.fixChecksums
  dsimp only [Option.bind_eq_bind]
  rw [notIPv4_bind]
  by_cases hip : pkt.length < 20 ∨ byteAt pkt 0 >>> 4 ≠ 4
  · rw [if_pos hip, if_pos hip]
    rfl
  · have hlen : 20 ≤ pkt.length := Nat.le_of_not_lt (not_or.mp hip).1
    have hcleared := length_overwrite_pair (v := 0) (w := 0) (show 10 + 2 ≤ pkt.length by omega)
    rw [if_neg hip, if_neg hip, store_store_bind rfl (by omega), slice_eq (by omega) (by omega),
      Option.bind_some, onesComplementSum_eq, Option.bind_some, store_store_bind rfl (by omega)]
    have hfixed : overwrite (overwrite pkt 10 [0, 0]) 10
        [(L3.onesComplementSum (((overwrite pkt 10 [0, 0]).take 20).drop 0) >>> 8).toUInt8,
          (L3.onesComplementSum (((overwrite pkt 10 [0, 0]).take 20).drop 0)).toUInt8] =
        fixIPChecksum pkt := rfl
    have hfix := (frame_fixIPChecksum hlen).length_eq
    rw [hfixed]
    generalize fixIPChecksum pkt = q at hfix ⊢
    rw [index_byteAt (by omega), ihl_eq (by omega)]
    dsimp only [Option.bind_some, Option.pure_def]
    by_cases hproto : byteAt q 9 ≠ 6
    · rw [if_pos hproto, if_pos hproto]
    rw [if_neg hproto, if_neg hproto]
    by_cases htcp : L3.ihl q < 20 ∨ q.length < L3.ihl q + 20
    · rw [if_pos htcp, if_pos htcp]
    · have hports : L3.ihl q + 20 ≤ q.length := Nat.le_of_not_lt (not_or.mp htcp).2
      have hihl : 20 ≤ L3.ihl q := Nat.le_of_not_lt (not_or.mp htcp).1
      have hzero := length_overwrite_pair (v := 0) (w := 0)
        (show L3.ihl q + 16 + 2 ≤ q.length by omega)
      have hframe : Frame (Set.Ico (L3.ihl q + 16) (L3.ihl q + 16 + 2)) q
          (overwrite q (L3.ihl q + 16) [0, 0]) := frame_putUint16 (by omega) 0
      have haddr {i : ℕ} (hi : i + 4 ≤ 20) :
          L3.addrAt (overwrite q (L3.ihl q + 16) [0, 0]) i = L3.addrAt q i :=
        addrAt_of_frame hframe fun j _ hj hmem => by
          have hge := hmem.1
          omega
      rw [if_neg htcp, if_neg htcp, slice_eq (by omega) (Nat.le_refl _), Option.bind_some,
        store_store_bind rfl (by omega), addrAt_eq (by omega), Option.bind_some,
        addrAt_eq (by omega), Option.bind_some, slice_eq (by omega) (Nat.le_refl _),
        Option.bind_some, tcpChecksum_eq, Option.bind_some, store_store (by omega),
        haddr (by omega), haddr (by omega), List.take_length]
      rfl

/-! ### The handlers -/

theorem notForUs_eq (h : 20 ≤ pkt.length) (egress : Addr) :
    notForUs pkt egress = some (decide (byteAt pkt 16 ≠ egress.a ∨ byteAt pkt 17 ≠ egress.b ∨
      byteAt pkt 18 ≠ egress.c ∨ byteAt pkt 19 ≠ egress.d)) := by
  unfold notForUs
  rw [index_byteAt (i := 16) (by omega), index_byteAt (i := 17) (by omega),
    index_byteAt (i := 18) (by omega), index_byteAt (i := 19) (by omega)]
  simp only [Option.bind_eq_bind, Option.bind_some, Option.pure_def]
  split_ifs with h16 h17 h18
  · simp [h16]
  · simp [h17]
  · simp [h18]
  · simp [h16, h17, h18]

/-- What comes from the transport is handled without a panic. -/
theorem handleFromTransport_eq (egress : Addr) (now : ℕ) (ct : Conntrack) (p : Bytes) :
    handleFromTransport egress now ct p = some (L3.handleFromTransport egress now ct p) := by
  unfold handleFromTransport L3.handleFromTransport
  rw [sliceIPv4_eq]
  dsimp only [Option.bind_eq_bind, Option.bind_some, Option.pure_def]
  cases hslice : L3.sliceIPv4 p with
  | none => rfl
  | some pkt =>
    have hlen := (sliced_of_sliceIPv4 hslice).length_ge
    dsimp only
    rw [isTCPRST_eq, Option.bind_some]
    by_cases hrst : L3.isTCPRST pkt = true
    · rw [if_pos hrst, if_pos hrst]
    · rw [if_neg hrst, if_neg hrst, rewriteSNAT_eq (by omega), Option.bind_some, fixChecksums_eq,
        Option.bind_some, extractFlowKey_eq, Option.bind_some]
      generalize L3.fixChecksums (L3.rewriteSNAT pkt egress) = q
      cases hkey : L3.extractFlowKey q with
      | none => rfl
      | some k =>
        have htcp := (extractFlowKey_eq_some_iff.mp hkey).1
        have hsend := htcp.length_ge_twenty
        dsimp only
        rw [isTCPClosing_eq (by omega), Option.bind_some, backendSend, addrAt_eq (by omega),
          Option.bind_some]

/-- What comes from the raw socket is handled without a panic, whether or not a message is
sampled. -/
theorem handleFromInternet_eq (verbose : Bool) (noct : UInt64) (egress : Addr) (now : ℕ)
    (ct : Conntrack) (p : Bytes) :
    handleFromInternet verbose noct egress now ct p =
      some (L3.handleFromInternet egress now ct p) := by
  unfold handleFromInternet L3.handleFromInternet
  rw [sliceIPv4_eq]
  dsimp only [Option.bind_eq_bind, Option.bind_some, Option.pure_def]
  cases hslice : L3.sliceIPv4 p with
  | none => rfl
  | some pkt =>
    have hlen := (sliced_of_sliceIPv4 hslice).length_ge
    dsimp only
    rw [notForUs_eq hlen, Option.bind_some, extractFlowKey_eq, Option.bind_some]
    simp only [decide_eq_true_eq]
    by_cases hother : byteAt pkt 16 ≠ egress.a ∨ byteAt pkt 17 ≠ egress.b ∨
        byteAt pkt 18 ≠ egress.c ∨ byteAt pkt 19 ≠ egress.d
    · rw [if_pos hother, if_pos hother]
    · rw [if_neg hother, if_neg hother]
      cases hkey : L3.extractFlowKey pkt with
      | none => rfl
      | some k =>
        have htcp := (extractFlowKey_eq_some_iff.mp hkey).1
        have hihl := htcp.ihl_ge
        have hports := htcp.length_ge
        dsimp only
        rw [index_byteAt (i := 33) (by omega), isTCPClosing_eq (by omega)]
        simp only [Option.bind_some]
        cases ct.existsEntry (reverseKey k) with
        | false =>
          simp only [Bool.not_false, if_true, Bool.false_eq_true, if_false]
          split_ifs
          · rfl
          · rfl
        | true =>
          simp only [Bool.not_true, if_true, Bool.false_eq_true, if_false]
          rw [rewriteDNAT_eq hlen, Option.bind_some, fixChecksums_eq, Option.bind_some]

/-- **No access outside the packet**: whatever arrives on either side, in every state of the table
and with or without messages, the checked handlers return what the handlers do. -/
theorem handlers_total (egress : Addr) (now : ℕ) (ct : Conntrack) (p : Bytes) :
    handleFromTransport egress now ct p = some (L3.handleFromTransport egress now ct p) ∧
      ∀ verbose noct, handleFromInternet verbose noct egress now ct p =
        some (L3.handleFromInternet egress now ct p) :=
  ⟨handleFromTransport_eq egress now ct p, fun verbose noct =>
    handleFromInternet_eq verbose noct egress now ct p⟩

end OpenFlux.L3.Checked
