import OpenFlux.Transport.Equiv.Encrypted
import OpenFlux.Transport.SeenNonces

/-!
# Which nonces are refused

The code's map and list are a `ReplayWindow` after every sequence of nonces (`window_step`), and
that is the duplicate filter on the list.  So what is remembered is the end of the sequence of
accepted nonces, up to `maxSeenNonces` of them, and these are the nonces that are refused
(`rememberNonce_accepts_iff`).
-/

namespace OpenFlux.Transport.Encrypted

/-- The map and the list of a window. -/
def ReplayWindow.forget (w : ReplayWindow) : SeenNonces where
  seen := w.seen
  seenOrder := w.seenOrder

namespace SeenNonces

/-- The code on the map and list of a window does what the window does. -/
theorem window_step (w : ReplayWindow) (nonce : Bytes) :
    w.forget.rememberNonce nonce =
      ((w.rememberNonce nonce).1.forget, (w.rememberNonce nonce).2) := by
  unfold rememberNonce ReplayWindow.rememberNonce
  by_cases hseen : nonce ∈ w.seen
  · rw [if_pos (show nonce ∈ w.forget.seen from hseen), dif_pos hseen]
  · rw [if_neg (show nonce ∉ w.forget.seen from hseen), dif_neg hseen]
    by_cases hfull : maxSeenNonces < (w.seenOrder ++ [nonce]).length
    · simp only [dif_pos hfull]
      show (if maxSeenNonces < (w.seenOrder ++ [nonce]).length then _ else _) = _
      rw [if_pos hfull]
      split
      · next oldest rest horder =>
        change w.seenOrder ++ [nonce] = oldest :: rest at horder
        split
        · next horder' => exact absurd (horder.symm.trans horder') (List.cons_ne_nil oldest rest)
        · next oldest' rest' horder' =>
          obtain ⟨rfl, rfl⟩ := List.cons.inj (horder.symm.trans horder')
          rfl
      · next horder => exact absurd horder (by simp [ReplayWindow.forget])
    · simp only [dif_neg hfull]
      show (if maxSeenNonces < (w.seenOrder ++ [nonce]).length then _ else _) = _
      rw [if_neg hfull]
      rfl

variable {nonces : List Bytes} {nonce : Bytes}

/-- After any sequence the map and the list are those of a window, and the filter has let through
what was accepted. -/
theorem exists_window (w : ReplayWindow) (nonces : List Bytes) :
    (∃ w' : ReplayWindow, w.forget.rememberAll nonces = w'.forget ∧
      w'.seenOrder = DuplicateFilter.memoryAfter maxSeenNonces w.seenOrder nonces) ∧
      w.forget.accepted nonces = DuplicateFilter.passed maxSeenNonces w.seenOrder nonces := by
  induction nonces generalizing w with
  | nil => exact ⟨⟨w, rfl, rfl⟩, rfl⟩
  | cons nonce nonces ih =>
    obtain ⟨⟨w', hw', horder⟩, haccepted⟩ := ih (w.rememberNonce nonce).1
    have hremember := w.remember_seenOrder nonce
    rw [rememberAll, List.foldl_cons, window_step, accepted, window_step, DuplicateFilter.passed,
      DuplicateFilter.memoryAfter, List.foldl_cons]
    cases hnew : (w.rememberNonce nonce).2 with
    | true =>
      rw [hnew, if_pos rfl] at hremember
      rw [hremember]
      exact ⟨⟨w', hw', horder⟩, congrArg (List.cons nonce) haccepted⟩
    | false =>
      rw [hnew, if_neg Bool.false_ne_true] at hremember
      have hsame : (w.rememberNonce nonce).1 = w := by
        have hmem := DuplicateFilter.remember_eq_none_iff.mp hremember
        rw [ReplayWindow.rememberNonce_of_mem hmem]
      rw [hsame] at hw' horder haccepted ⊢
      rw [hremember]
      exact ⟨⟨w', hw', horder⟩, haccepted⟩

/-- What the memory is after a sequence of nonces. -/
structure Remembers (s : SeenNonces) (accepted : List Bytes) : Prop where
  order : s.seenOrder = accepted.rtake maxSeenNonces
  mem_seen : ∀ nonce, nonce ∈ s.seen ↔ nonce ∈ s.seenOrder
  nodup : s.seenOrder.Nodup
  length_le : s.seenOrder.length ≤ maxSeenNonces
  card_eq : s.seen.card = s.seenOrder.length

/-- **The last accepted nonces are refused**: after any sequence of nonces the map and the list hold
the last `maxSeenNonces` accepted ones, and a nonce is accepted exactly when it is not one of them;
so one that was not presented before is. -/
theorem rememberNonce_accepts_iff (nonces : List Bytes) (nonce : Bytes) :
    Remembers (rememberAll {} nonces) (accepted {} nonces) ∧
      (((rememberAll {} nonces).rememberNonce nonce).2 = true ↔
        nonce ∉ (accepted {} nonces).rtake maxSeenNonces) ∧
      (nonce ∉ nonces → ((rememberAll {} nonces).rememberNonce nonce).2 = true) := by
  obtain ⟨⟨w, hw, horder⟩, haccepted⟩ := exists_window .empty nonces
  change rememberAll {} nonces = w.forget at hw
  change accepted {} nonces = _ at haccepted
  have hlast : w.seenOrder = (accepted {} nonces).rtake maxSeenNonces := by
    rw [horder, haccepted]
    exact DuplicateFilter.memoryAfter_eq_rtake maxSeenNonces nonces
  have hseen : w.seen = w.seenOrder.toFinset := by
    ext a
    rw [w.mem_seen, List.mem_toFinset]
  have hiff : ((rememberAll {} nonces).rememberNonce nonce).2 = true ↔
      nonce ∉ (accepted {} nonces).rtake maxSeenNonces := by
    rw [hw, window_step, ReplayWindow.rememberNonce_new, hlast]
  refine ⟨?_, hiff, fun hfresh => hiff.mpr fun hmem => hfresh ?_⟩
  · rw [hw]
    exact ⟨hlast, w.mem_seen, w.nodup, w.length_le,
      by rw [ReplayWindow.forget, hseen, List.toFinset_card_of_nodup w.nodup]⟩
  · rw [haccepted] at hmem
    exact DuplicateFilter.mem_of_mem_passed (List.mem_of_mem_drop hmem)

end SeenNonces

end OpenFlux.Transport.Encrypted
