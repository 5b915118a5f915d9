import OpenFlux.L3.Equiv.Flow
import OpenFlux.Network.Checksum

/-!
# The two checksum implementations

Both sum the same words (`sumWords_eq`), and folding twice is enough for any 32-bit sum
(`foldTwice_eq`), so `IPChecksum` is `onesComplementSum` on every byte string, whether or not the
sum wraps.  The bytes of the pseudo header add up to what `tcpChecksum` starts from.  Up to 65535
bytes nothing wraps, and the result is the complement of the words' ones' complement sum.
-/

namespace OpenFlux.Network

open L3 OnesComplement

/-! ### The sums -/

/-- The loop over the pairs and the odd byte after it are one pass over the words. -/
theorem addPairs_odd (b : Bytes) : ∀ sum : UInt32,
    (if b.length % 2 = 1 then addPairs sum b + (b.getD (b.length - 1) 0).toUInt32 <<< 8
      else addPairs sum b) = addWords sum b := by
  induction b using wordSum.induct with
  | case1 hi lo rest ih =>
    intro sum
    have hodd : (hi :: lo :: rest).length % 2 = 1 ↔ rest.length % 2 = 1 := by
      rw [List.length_cons, List.length_cons]
      omega
    have hlast (h : rest.length % 2 = 1) :
        (hi :: lo :: rest).getD ((hi :: lo :: rest).length - 1) 0 =
          rest.getD (rest.length - 1) 0 := by
      obtain ⟨n, hn⟩ : ∃ n, rest.length = n + 1 := ⟨rest.length - 1, by omega⟩
      rw [List.length_cons, List.length_cons, hn]
      rfl
    rw [addWords, ← ih, addPairs]
    simp only [hodd]
    split_ifs with h
    · rw [hlast h]
    · rfl
  | case2 hi => intro sum; rfl
  | case3 => intro sum; rfl

theorem sumWords_eq (b : Bytes) : sumWords b = addWords 0 b := addPairs_odd b 0

/-- Two folds and the loop leave the same low 16 bits. -/
theorem foldTwice_eq (sum : UInt32) :
    (~~~ ((sum >>> 16) + (sum &&& (0xFFFF : UInt32)) +
      ((sum >>> 16) + (sum &&& (0xFFFF : UInt32))) >>> 16)).toUInt16 =
      (~~~ foldCarries sum).toUInt16 := by
  apply UInt16.toNat_inj.mp
  have hlt := sum.toNat_lt
  have hle := endAround_le (M := 65535) (by omega) sum.toNat
  -- after the first fold at most one carry is left
  have honce : ((sum >>> 16) + (sum &&& (0xFFFF : UInt32))).toNat =
      sum.toNat % 65536 + sum.toNat / 65536 := by rw [UInt32.add_comm, toNat_low_add_high]
  have hfold := endAround_fold 65535 sum.toNat
  generalize (sum >>> 16) + (sum &&& (0xFFFF : UInt32)) = once at honce
  have htwice : (once + once >>> 16).toNat = once.toNat + once.toNat / 65536 := by
    rw [UInt32.toNat_add, toNat_high, Nat.mod_eq_of_lt (by omega)]
  have hfold' := endAround_fold 65535 once.toNat
  have hend : endAround 65535 (once.toNat % (65535 + 1) + once.toNat / (65535 + 1)) =
      once.toNat % (65535 + 1) + once.toNat / (65535 + 1) := endAround_of_le (by omega)
  rw [toNat_complement, UInt32.toNat_toUInt16, UInt32.toNat_not, htwice]
  show (4294967296 - 1 - (once.toNat + once.toNat / 65536)) % 65536 = _
  have hsum : endAround 65535 sum.toNat = once.toNat % 65536 + once.toNat / 65536 := by
    rw [← hfold, show 65535 + 1 = 65536 from rfl, ← honce, ← hfold', hend]
  omega

theorem ipChecksum_eq (b : Bytes) : ipChecksum b = onesComplementSum b := by
  rw [ipChecksum, onesComplementSum, sumWords_eq]
  exact foldTwice_eq _

/-! ### The pseudo header -/

theorem pseudoHeader_eq (srcIP dstIP : Addr) (tcpLen : ℕ) :
    pseudoHeader srcIP dstIP tcpLen = L3.pseudoHeader srcIP dstIP tcpLen := by
  have hhigh : UInt8.ofNat (tcpLen >>> 8) = (UInt16.ofNat tcpLen >>> 8).toUInt8 := by
    apply UInt8.toNat_inj.mp
    simp only [UInt8.toNat_ofNat', UInt16.toNat_toUInt8, UInt16.toNat_shiftRight,
      UInt16.toNat_ofNat', UInt16.reduceToNat, Nat.reduceMod, Nat.shiftRight_eq_div_pow]
    omega
  have hlow : UInt8.ofNat (tcpLen &&& 0xFF) = (UInt16.ofNat tcpLen).toUInt8 := by
    have hmask : tcpLen &&& 0xFF = tcpLen % 2 ^ 8 := Nat.and_two_pow_sub_one_eq_mod _ 8
    apply UInt8.toNat_inj.mp
    simp only [UInt8.toNat_ofNat', UInt16.toNat_toUInt8, UInt16.toNat_ofNat', hmask]
    omega
  rw [pseudoHeader, hhigh, hlow]
  rfl

/-! ### No sum wraps -/

/-- The 32-bit sums of all four functions are the plain sums, at every word of the loops, and so are
the folded ones. -/
structure NoWrap (b : Bytes) (src dst : Addr) : Prop where
  words : ∀ k, (addWords 0 (b.take k)).toNat = wordSum (b.take k)
  segment : ∀ k, (addWords (pseudoSum b.length src dst) (b.take k)).toNat =
    wordSum (L3.pseudoHeader src dst b.length) + wordSum (b.take k)
  all : ∀ k, (sumWords ((pseudoHeader src dst b.length ++ b).take k)).toNat =
    wordSum ((pseudoHeader src dst b.length ++ b).take k)
  fold : ∀ sum : UInt32, ((sum &&& (0xFFFF : UInt32)) + (sum >>> 16)).toNat =
    sum.toNat % 65536 + sum.toNat / 65536

/-- A sum that starts below `2^20` has room for 65547 bytes. -/
theorem toNat_addWords_of_length {b : Bytes} {sum : UInt32} (hlen : b.length ≤ 65547)
    (hsum : sum.toNat < 2 ^ 20) : (addWords sum b).toNat = sum.toNat + wordSum b := by
  have hle := wordSum_le b
  have hwords : (b.length + 1) / 2 ≤ 32774 := by omega
  have hbound : wordSum b ≤ 65535 * 32774 := hle.trans (Nat.mul_le_mul_left _ hwords)
  exact toNat_addWords b sum (by omega)

theorem toNat_sumWords {b : Bytes} (hlen : b.length ≤ 65547) : (sumWords b).toNat = wordSum b := by
  rw [sumWords_eq, toNat_addWords_of_length hlen (by decide), UInt32.toNat_zero, Nat.zero_add]

theorem pseudoSum_lt {length : ℕ} (h : length ≤ 65535) (src dst : Addr) :
    (pseudoSum length src dst).toNat < 2 ^ 20 := by
  have htwelve : (L3.pseudoHeader src dst length).length = 12 := rfl
  have hle := wordSum_le (L3.pseudoHeader src dst length)
  rw [htwelve] at hle
  rw [toNat_pseudoSum src dst (by omega)]
  omega

theorem noWrap {b : Bytes} (h : b.length ≤ 65535) (src dst : Addr) : NoWrap b src dst where
  words k := by
    have hlen : (b.take k).length ≤ 65547 := by rw [List.length_take]; omega
    rw [toNat_addWords_of_length hlen (by decide), UInt32.toNat_zero, Nat.zero_add]
  segment k := by
    have hlen : (b.take k).length ≤ 65547 := by rw [List.length_take]; omega
    rw [toNat_addWords_of_length hlen (pseudoSum_lt h src dst), toNat_pseudoSum src dst (by omega)]
  all k := by
    have htwelve : (pseudoHeader src dst b.length).length = 12 := rfl
    exact toNat_sumWords (by rw [List.length_take, List.length_append]; omega)
  fold := toNat_low_add_high

/-! ### The implementations -/

theorem toNat_tcpSum {tcp : Bytes} (h : tcp.length ≤ 65535) (src dst : Addr) :
    (addWords (pseudoSum tcp.length src dst) tcp).toNat =
      wordSum (L3.pseudoHeader src dst tcp.length ++ tcp) := by
  rw [toNat_addWords_of_length (by omega) (pseudoSum_lt h src dst),
    toNat_pseudoSum src dst (by omega), wordSum_pseudoHeader_append]

theorem tcpChecksum_eq {tcp : Bytes} (h : tcp.length ≤ 65535) (src dst : Addr) :
    tcpChecksum tcp src dst = L3.tcpChecksum tcp src dst := by
  have htwelve : (L3.pseudoHeader src dst tcp.length).length = 12 := rfl
  have hlen : (L3.pseudoHeader src dst tcp.length ++ tcp).length ≤ 65547 := by
    rw [List.length_append]
    omega
  have hsum : sumWords (L3.pseudoHeader src dst tcp.length ++ tcp) =
      addWords (pseudoSum tcp.length src dst) tcp := by
    apply UInt32.toNat_inj.mp
    rw [toNat_sumWords hlen, toNat_tcpSum h]
  rw [tcpChecksum, L3.tcpChecksum, pseudoHeader_eq, hsum]

/-- The ones' complement of the ones' complement sum of the 16-bit words. -/
def onesComplement (b : Bytes) : ℕ := 65535 - (words b).foldl (OnesComplement.add 65535) 0

theorem toNat_complement_eq {sum : UInt32} {b : Bytes} (h : sum.toNat = wordSum b) :
    (~~~ foldCarries sum).toUInt16.toNat = onesComplement b := by
  rw [toNat_complement, h, onesComplement, foldl_words]

/-- **The checksums agree**: `IPChecksum` and `onesComplementSum` on every byte string,
`TCPChecksum` and `tcpChecksum` on every segment of at most 65535 bytes.  Up to that length no sum
wraps, and the result is the ones' complement of the ones' complement sum of the words. -/
theorem checksums_agree (b : Bytes) (src dst : Addr) :
    ipChecksum b = onesComplementSum b ∧
      (b.length ≤ 65535 → tcpChecksum b src dst = L3.tcpChecksum b src dst ∧ NoWrap b src dst ∧
        (onesComplementSum b).toNat = onesComplement b ∧
        (L3.tcpChecksum b src dst).toNat =
          onesComplement (L3.pseudoHeader src dst b.length ++ b)) := by
  refine ⟨ipChecksum_eq b, fun h => ⟨tcpChecksum_eq h src dst, noWrap h src dst, ?_, ?_⟩⟩
  · have hsum := toNat_addWords_of_length (b := b) (show b.length ≤ 65547 by omega)
      (show (0 : UInt32).toNat < 2 ^ 20 by decide)
    rw [UInt32.toNat_zero, Nat.zero_add] at hsum
    exact toNat_complement_eq hsum
  · exact toNat_complement_eq (toNat_tcpSum h src dst)

end OpenFlux.Network
