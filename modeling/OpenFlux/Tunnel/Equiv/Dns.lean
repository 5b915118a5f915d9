import OpenFlux.Tunnel.Dns

/-!
# Every query gets its own answer

The queries and the answers are length-prefixed records.  What `dnsOverTCP` writes is one record for
every query that fits its buffer, and what it returns is the first record of the resolver, whatever
the segments it came in (`dnsOverTCP_snd`).  So a flow is answered query by query up to the first
one that fails, and nothing is cut short (`answered_each`).
-/

namespace OpenFlux.Tunnel.Dns

open LengthPrefixed

/-- `ReadFull` does not see the segments. -/
theorem readFull_spec {n : ℕ} {segments rest : List Bytes} {b : Bytes} :
    readFull n segments = some (b, rest) →
      b.length = n ∧ segments.flatten = b ++ rest.flatten := by
  induction n, segments using readFull.induct generalizing b rest with
  | case1 segments =>
    rw [readFull]
    rintro ⟨⟩
    exact ⟨rfl, rfl⟩
  | case2 n => rw [readFull]; exact nofun
  | case3 n segment segments hle ih =>
    rw [readFull, if_pos hle, Option.map_eq_some_iff]
    rintro ⟨⟨b', rest'⟩, hread, heq⟩
    cases heq
    obtain ⟨hlen, hflat⟩ := ih hread
    refine ⟨?_, ?_⟩
    · rw [List.length_append, hlen]
      omega
    · rw [List.flatten_cons, hflat, List.append_assoc]
  | case4 n segment segments hlt =>
    rw [readFull, if_neg hlt]
    rintro ⟨⟩
    refine ⟨?_, ?_⟩
    · rw [List.length_take]
      omega
    · rw [List.flatten_cons, List.flatten_cons, ← List.append_assoc, List.take_append_drop]

/-- `ReadFull` fails only if there is not enough. -/
theorem exists_readFull {n : ℕ} {segments : List Bytes} (h : n ≤ segments.flatten.length) :
    ∃ b rest, readFull n segments = some (b, rest) := by
  induction n, segments using readFull.induct with
  | case1 segments => exact ⟨[], segments, by rw [readFull]⟩
  | case2 n =>
    rw [List.flatten_nil, List.length_nil] at h
    omega
  | case3 n segment segments hle ih =>
    rw [List.flatten_cons, List.length_append] at h
    obtain ⟨b, rest, hread⟩ := ih (by omega)
    exact ⟨segment ++ b, rest, by rw [readFull, if_pos hle, hread]; rfl⟩
  | case4 n segment segments hlt => exact ⟨_, _, by rw [readFull, if_neg hlt]⟩

/-- A stream that begins with this record. -/
def Begins (stream record : Bytes) : Prop :=
  record.length < uint16Header.bound ∧ ∃ rest, stream = frame uint16Header [record] ++ rest

theorem request_eq_frame (query : Bytes) : request query = frame uint16Header [query] := by
  rw [frame_cons, frame_nil, List.append_nil]
  rfl

/-- **What `dnsOverTCP` returns**: the first record that the resolver sends. -/
theorem dnsOverTCP_snd {conn : Conn} {query resp : Bytes} :
    (dnsOverTCP conn query).2 = some resp ↔
      conn.dials = true ∧ conn.writes = true ∧ Begins conn.answer.flatten resp := by
  unfold dnsOverTCP
  by_cases hdials : conn.dials = true
  · by_cases hwrites : conn.writes = true
    · simp only [hdials, hwrites, not_true_eq_false, if_false, true_and]
      constructor
      · intro h
        simp only [Option.bind_eq_bind, Option.bind_eq_some_iff, Prod.exists] at h
        obtain ⟨hdr, rest, hhdr, resp', rest', hresp, heq⟩ := h
        cases heq
        obtain ⟨hwidth, hflat⟩ := readFull_spec hhdr
        obtain ⟨hlen, hflat'⟩ := readFull_spec hresp
        have hdec : uint16Header.decode hdr = resp.length := hlen.symm
        refine ⟨hdec ▸ uint16Header.decode_lt hdr hwidth, rest'.flatten, ?_⟩
        rw [hflat, hflat', frame_cons, frame_nil, List.append_nil, List.append_assoc, ← hdec,
          uint16Header.encode_decode hdr hwidth]
      · rintro ⟨hlt, rest, hflat⟩
        rw [frame_cons, frame_nil, List.append_nil, List.append_assoc] at hflat
        have henc := uint16Header.encode_length resp.length
        have hlen : 2 ≤ conn.answer.flatten.length := by
          rw [hflat, List.length_append, henc]
          exact Nat.le_add_right _ _
        obtain ⟨hdr, segments, hhdr⟩ := exists_readFull hlen
        obtain ⟨hwidth, hflat'⟩ := readFull_spec hhdr
        obtain ⟨rfl, hrest⟩ := List.append_inj (hflat'.symm.trans hflat) (hwidth.trans henc.symm)
        have hdec : (beUint16 ((uint16Header.encode resp.length).getD 0 0)
            ((uint16Header.encode resp.length).getD 1 0)).toNat = resp.length :=
          uint16Header.decode_encode _ hlt
        have hlen : resp.length ≤ segments.flatten.length := by
          rw [hrest, List.length_append]
          exact Nat.le_add_right _ _
        obtain ⟨b, segments', hresp⟩ := exists_readFull hlen
        obtain ⟨hlen, hflat''⟩ := readFull_spec hresp
        obtain ⟨rfl, -⟩ := List.append_inj (hflat''.symm.trans hrest) hlen
        simp only [hhdr, Option.bind_eq_bind, Option.bind_some, hdec, hresp]
        rfl
    · simp [hdials, hwrites]
  · simp [hdials]

/-! ### A flow -/

/-- The datagram is answered with `resp`. -/
def Answered (d : Datagram) (resp : Bytes) : Prop :=
  d.query ≠ [] ∧ d.conn.dials = true ∧ d.conn.writes = true ∧ d.replies = true ∧
    Begins d.conn.answer.flatten resp

/-- What `dnsOverTCP` writes, if anything, is the query as a record. -/
theorem dnsOverTCP_fst {conn : Conn} {query asked : Bytes}
    (h : (dnsOverTCP conn query).1 = some asked) : asked = frame uint16Header [query] := by
  rw [← request_eq_frame]
  unfold dnsOverTCP at h
  split_ifs at h <;> exact (Option.some.inj h).symm

theorem isSome_dnsOverTCP_fst {conn : Conn} {query resp : Bytes}
    (h : (dnsOverTCP conn query).2 = some resp) : (dnsOverTCP conn query).1.isSome = true := by
  obtain ⟨hdials, hwrites, -⟩ := dnsOverTCP_snd.mp h
  simp [dnsOverTCP, hdials, hwrites]

theorem serve_cons_of_answered {d : Datagram} {resp : Bytes} (h : Answered d resp)
    (ds : List Datagram) : serve (d :: ds) = {
      asked := frame uint16Header [d.query] :: (serve ds).asked
      answered := resp :: (serve ds).answered } := by
  obtain ⟨hquery, hdials, hwrites, hreplies, hbegins⟩ := h
  have hresp : (dnsOverTCP d.conn d.query).2 = some resp :=
    dnsOverTCP_snd.mpr ⟨hdials, hwrites, hbegins⟩
  obtain ⟨asked, hasked⟩ := Option.isSome_iff_exists.mp (isSome_dnsOverTCP_fst hresp)
  have hpair : dnsOverTCP d.conn d.query = (some (frame uint16Header [d.query]), some resp) := by
    rw [← dnsOverTCP_fst hasked, ← hasked, ← hresp]
  simp only [serve, hquery, if_false, hpair, hreplies, not_true_eq_false, Option.toList_some,
    List.singleton_append]

theorem serve_cons_of_not_answered {d : Datagram} (h : ∀ resp, ¬ Answered d resp)
    (ds : List Datagram) : (serve (d :: ds)).answered = [] ∧ ((serve (d :: ds)).asked = [] ∨
      (serve (d :: ds)).asked = [frame uint16Header [d.query]]) := by
  have htoList : (dnsOverTCP d.conn d.query).1.toList = [] ∨
      (dnsOverTCP d.conn d.query).1.toList = [frame uint16Header [d.query]] := by
    cases hasked : (dnsOverTCP d.conn d.query).1 with
    | none => exact .inl rfl
    | some asked => exact .inr (by rw [dnsOverTCP_fst hasked]; rfl)
  by_cases hquery : d.query = []
  · simp [serve, hquery]
  · simp only [serve, hquery, if_false]
    split
    · next asked hpair =>
      rw [hpair] at htoList
      exact ⟨rfl, htoList⟩
    · next asked resp hpair =>
      rw [hpair] at htoList
      have hreplies : ¬ d.replies = true := fun hreplies => by
        obtain ⟨hdials, hwrites, hbegins⟩ := dnsOverTCP_snd.mp (congrArg Prod.snd hpair)
        exact h resp ⟨hquery, hdials, hwrites, hreplies, hbegins⟩
      simp only [hreplies]
      exact ⟨rfl, htoList⟩

/-- **Every query gets its own answer**: the datagrams of a flow are answered one by one up to the
first one that fails, each with the first record of the resolver it was sent to, whole.  What the
resolvers are sent are the queries that were answered, and perhaps the one that failed, one record
each. -/
theorem answered_each (ds : List Datagram) :
    (∃ done left, ds = done ++ left ∧
      List.Forall₂ Answered done (handleUDP 53 ds).2.answered ∧
      (∀ d resp, left.head? = some d → ¬ Answered d resp) ∧
      ∃ tried, tried <+: left ∧ tried.length ≤ 1 ∧
        (handleUDP 53 ds).2.asked = (done ++ tried).map fun d => frame uint16Header [d.query]) ∧
    ∀ d ∈ ds, Parses uint16Header (frame uint16Header [d.query]) [d.query] := by
  constructor
  · show ∃ done left, ds = done ++ left ∧ List.Forall₂ Answered done (serve ds).answered ∧ _ ∧
      ∃ tried, tried <+: left ∧ tried.length ≤ 1 ∧ (serve ds).asked = _
    induction ds with
    | nil => exact ⟨[], [], rfl, .nil, nofun, [], List.nil_prefix, Nat.zero_le 1, rfl⟩
    | cons d ds ih =>
      by_cases hgood : ∃ resp, Answered d resp
      · obtain ⟨resp, hresp⟩ := hgood
        obtain ⟨done, left, rfl, hall, hstop, tried, hleft, hone, hasked⟩ := ih
        rw [serve_cons_of_answered hresp]
        refine ⟨d :: done, left, rfl, .cons hresp hall, hstop, tried, hleft, hone, ?_⟩
        exact congrArg _ hasked
      · obtain ⟨hanswered, hasked⟩ := serve_cons_of_not_answered (fun resp h => hgood ⟨resp, h⟩) ds
        refine ⟨[], d :: ds, rfl, hanswered ▸ .nil, ?_, ?_⟩
        · rintro d' resp ⟨⟩ hresp
          exact hgood ⟨resp, hresp⟩
        · rcases hasked with hnone | hone
          · exact ⟨[], List.nil_prefix, Nat.zero_le 1, hnone⟩
          · exact ⟨[d], List.cons_prefix_cons.mpr ⟨rfl, List.nil_prefix⟩, le_rfl, hone⟩
  · intro d hd
    refine parses_frame uint16Header [d.query] fun r hr => ?_
    rw [List.mem_singleton.mp hr]
    exact d.length_le.trans_lt (by decide)

end OpenFlux.Tunnel.Dns
