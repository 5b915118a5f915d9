import Mathlib.Data.List.GetD
import OpenFlux.Socks5.Equiv.Connect

/-!
# What the segments of a stream do to the server

`handleConnection` takes each message for what one `Read` returns.  A client that waits for the
answers is served as it should be (`handleConnection_separate`), but a stream that is accepted when
it comes in one way is refused when it comes byte by byte: the outcome is that of the stream alone
exactly for the streams that are never accepted (`undivided_iff`).
-/

namespace OpenFlux.Socks5

/-- The segments in which a stream may come. -/
def Division (s : Bytes) (segments : List Bytes) : Prop := [] ∉ segments ∧ segments.flatten = s

/-- What the target gets from the client. -/
def Outcome.forwarded (o : Outcome) : Option Bytes := o.relayed.map List.flatten

/-- A request for an address, and nothing after it. -/
def IsRequest (request addr : Bytes) : Prop :=
  targetAddr request = some addr ∧
    request.length = if request.getD 3 0 = 0x01 then 10 else 7 + (request.getD 4 0).toNat

/-- However the stream comes, the server makes the same of it, and forwards what follows the
request. -/
def Undivided (dial : Bytes → Bool) (s : Bytes) : Prop :=
  (∀ d₁ d₂, Division s d₁ → Division s d₂ →
    (handleConnection dial d₁).dialed = (handleConnection dial d₂).dialed ∧
      (handleConnection dial d₁).forwarded = (handleConnection dial d₂).forwarded) ∧
  ∀ d addr data, Division s d → (handleConnection dial d).dialed = some addr →
    (handleConnection dial d).forwarded = some data →
      ∃ hello request, s = hello ++ request ++ data ∧ IsRequest request addr

/-- What the server takes for a request. -/
def LooksLikeRequest (b : Bytes) : Prop :=
  10 ≤ b.length ∧ b.getD 1 0 = 0x01 ∧
    (b.getD 3 0 = 0x01 ∨
      b.getD 3 0 = 0x03 ∧ 0 < (b.getD 4 0).toNat ∧ 7 + (b.getD 4 0).toNat ≤ b.length)

/-- The stream starts as a greeting does, and what may follow a greeting looks like a request. -/
def MayRequest (s : Bytes) : Prop :=
  s.getD 0 0 = 0x05 ∧ ∃ k, 2 ≤ k ∧ k ≤ 256 ∧ LooksLikeRequest ((s.drop k).take 256)

/-! ### Requests -/

theorem targetAddr_isSome_iff {b : Bytes} : (targetAddr b).isSome ↔ LooksLikeRequest b := by
  unfold targetAddr LooksLikeRequest
  by_cases hbad : b.length < 10 ∨ b.getD 1 0 ≠ 0x01
  · rw [if_pos hbad]
    refine iff_of_false nofun fun h => ?_
    rcases hbad with hshort | hcmd
    · omega
    · exact hcmd h.2.1
  · rw [if_neg hbad]
    obtain ⟨hlen, hcmd⟩ := not_or.mp hbad
    replace hlen := Nat.not_lt.mp hlen
    replace hcmd := not_not.mp hcmd
    by_cases hipv4 : b.getD 3 0 = 0x01
    · rw [if_pos hipv4]
      exact iff_of_true rfl ⟨hlen, hcmd, .inl hipv4⟩
    · rw [if_neg hipv4]
      by_cases hhost : b.getD 3 0 = 0x03
      · rw [if_pos hhost]
        simp only
        split_ifs with hsize
        · refine iff_of_false nofun fun h => ?_
          rcases h.2.2 with h | ⟨-, hpos, hle⟩
          · exact hipv4 h
          · omega
        · exact iff_of_true rfl ⟨hlen, hcmd, .inr ⟨hhost, by omega, by omega⟩⟩
      · rw [if_neg hhost]
        refine iff_of_false nofun fun h => ?_
        rcases h.2.2 with h | ⟨h, -⟩
        · exact hipv4 h
        · exact hhost h

theorem LooksLikeRequest.mono {b c : Bytes} (h : LooksLikeRequest b) (hbc : b <+: c) :
    LooksLikeRequest c := by
  obtain ⟨t, rfl⟩ := hbc
  obtain ⟨hlen, hcmd, hrest⟩ := h
  have hget {i : ℕ} (hi : i < 10) : (b ++ t).getD i 0 = b.getD i 0 :=
    List.getD_append b t 0 i (by omega)
  unfold LooksLikeRequest
  rw [hget (by decide), hget (by decide), hget (by decide), List.length_append]
  refine ⟨by omega, hcmd, hrest.imp_right ?_⟩
  rintro ⟨hhost, hpos, hle⟩
  exact ⟨hhost, hpos, by omega⟩

/-! ### Reads -/

theorem read_flatten {size : ℕ} {segments rest : List Bytes} {b : Bytes}
    (h : read size segments = some (b, rest)) :
    segments.flatten = b ++ rest.flatten ∧ b.length ≤ size := by
  cases segments with
  | nil => cases h
  | cons segment segments =>
    rw [read] at h
    split_ifs at h with hlen
    · cases h
      exact ⟨rfl, hlen⟩
    · cases h
      refine ⟨?_, List.length_take_le _ _⟩
      rw [List.flatten_cons, List.flatten_cons, ← List.append_assoc, List.take_append_drop]

/-- A stream that is accepted in some division may request. -/
theorem mayRequest_of_dialed {dial : Bytes → Bool} {s addr : Bytes} {segments : List Bytes}
    (hd : Division s segments) (h : (handleConnection dial segments).dialed = some addr) :
    MayRequest s := by
  obtain ⟨hello, segments', request, rest, hhello, htwo, hversion, hrequest, htarget, -⟩ :=
    exists_of_dialed h
  obtain ⟨hflat, hle⟩ := read_flatten hhello
  obtain ⟨hflat', hle'⟩ := read_flatten hrequest
  have hs : s = hello ++ (request ++ rest.flatten) := by rw [← hd.2, hflat, hflat']
  refine ⟨?_, hello.length, htwo, hle, ?_⟩
  · rw [hs, List.getD_append _ _ _ _ (by omega)]
    exact hversion
  · have hlooks := targetAddr_isSome_iff.mp (Option.isSome_of_eq_some htarget)
    apply hlooks.mono
    rw [hs, List.drop_left, List.prefix_take_iff]
    exact ⟨List.prefix_append _ _, hle'⟩

theorem forwarded_of_not_dialed {dial : Bytes → Bool} {segments : List Bytes}
    (h : (handleConnection dial segments).dialed = none) :
    (handleConnection dial segments).forwarded = none := by
  unfold handleConnection at h ⊢
  split at h
  · rfl
  · split_ifs at h ⊢ with hbad
    · rfl
    · split at h
      · rfl
      · split at h
        · rfl
        · change (dialedOutcome dial _ _).dialed = none at h
          rw [dialed_dialedOutcome] at h
          cases h

/-! ### Streams -/

theorem division_two {s : Bytes} {k : ℕ} (hpos : 0 < k) (hk : k < s.length) :
    Division s [s.take k, s.drop k] := by
  refine ⟨?_, by rw [List.flatten_cons, List.flatten_singleton, List.take_append_drop]⟩
  simp only [List.mem_cons, List.not_mem_nil, or_false, not_or]
  constructor
  · intro h
    have hlen := congrArg List.length h
    rw [List.length_take, List.length_nil] at hlen
    omega
  · intro h
    have hlen := congrArg List.length h
    rw [List.length_drop, List.length_nil] at hlen
    omega

theorem division_singletons (s : Bytes) : Division s (s.map fun c => [c]) := by
  refine ⟨?_, by rw [← List.flatMap_def, List.flatMap_singleton']⟩
  intro h
  obtain ⟨c, -, hc⟩ := List.mem_map.mp h
  cases hc

/-- A first byte on its own is refused. -/
theorem dialed_singletons (dial : Bytes → Bool) (s : Bytes) :
    (handleConnection dial (s.map fun c => [c])).dialed = none := by
  cases s with
  | nil => rfl
  | cons c s => rfl

/-- **The outcome is that of the stream**, however it comes in segments, exactly if the stream is
refused however it comes: it does not start as a greeting does, or nothing that follows as from the
third byte to the 257th looks like a request. -/
theorem undivided_iff (dial : Bytes → Bool) (s : Bytes) : Undivided dial s ↔ ¬ MayRequest s := by
  constructor
  · rintro h ⟨hversion, k, htwo, hk, hlooks⟩
    have hlen : k < s.length := by
      have hten := hlooks.1
      rw [List.length_take, List.length_drop] at hten
      omega
    have hhello : (s.take k).length = k := List.length_take_of_le hlen.le
    have hversion : (s.take k).getD 0 0 = 0x05 := by
      rw [← hversion]
      conv_rhs => rw [← List.take_append_drop k s]
      rw [List.getD_append _ _ _ _ (by omega)]
    have hdialed := dialed_handleConnection dial (hhello.le.trans hk) (htwo.trans hhello.ge)
      hversion (s.drop k) []
    have hsame := (h.1 _ _ (division_two (by omega) hlen) (division_singletons s)).1
    rw [hdialed, dialed_singletons] at hsame
    rw [← targetAddr_isSome_iff, hsame] at hlooks
    cases hlooks
  · intro h
    have hnone : ∀ d, Division s d → (handleConnection dial d).dialed = none := by
      intro d hd
      cases hdialed : (handleConnection dial d).dialed with
      | none => rfl
      | some addr => exact absurd (mayRequest_of_dialed hd hdialed) h
    constructor
    · intro d₁ d₂ h₁ h₂
      rw [hnone d₁ h₁, hnone d₂ h₂, forwarded_of_not_dialed (hnone d₁ h₁),
        forwarded_of_not_dialed (hnone d₂ h₂)]
      exact ⟨rfl, rfl⟩
    · intro d addr data hd hdialed
      rw [hnone d hd] at hdialed
      cases hdialed

/-- A greeting and a request for 10.0.0.1:80, which come together. -/
theorem not_undivided_together : ¬ Undivided (fun _ => true)
    [5, 1, 0, 5, 1, 0, 1, 10, 0, 0, 1, 0, 80] := by
  intro h
  have happart : Division [5, 1, 0, 5, 1, 0, 1, 10, 0, 0, 1, 0, 80]
      [[5, 1, 0], [5, 1, 0, 1, 10, 0, 0, 1, 0, 80]] := ⟨by decide, rfl⟩
  have htogether : Division [5, 1, 0, 5, 1, 0, 1, 10, 0, 0, 1, 0, 80]
      [[5, 1, 0, 5, 1, 0, 1, 10, 0, 0, 1, 0, 80]] := ⟨by decide, rfl⟩
  have hsame := (h.1 _ _ happart htogether).1
  exact absurd hsame (by decide)

/-- A client that waits for the answers: its data is forwarded as it comes. -/
theorem handleConnection_separate {dial : Bytes → Bool} {hello request addr : Bytes}
    (hle : hello.length ≤ 256) (htwo : 2 ≤ hello.length) (hversion : hello.getD 0 0 = 0x05)
    (hle' : request.length ≤ 256) (htarget : targetAddr request = some addr)
    (hdial : dial addr = true) (data : List Bytes) :
    (handleConnection dial (hello :: request :: data)).dialed = some addr ∧
      (handleConnection dial (hello :: request :: data)).relayed = some data := by
  rw [handleConnection_eq (read_of_length_le hle _) htwo hversion (read_of_length_le hle' _),
    htarget]
  simp only [dialedOutcome, hdial, if_true, and_self]

end OpenFlux.Socks5
