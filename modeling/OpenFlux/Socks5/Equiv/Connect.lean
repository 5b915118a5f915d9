import Mathlib.Data.Bool.AllAny
import OpenFlux.App.Socks5
import OpenFlux.Socks5.Server

/-!
# The app's requests at the server

The server wants ten bytes of a request, as many as an IPv4 request has, and reads 256 at most.  A
host takes seven bytes more than its length, so the server dials for the hosts of 3 to 249
characters and no others (`dialed_iff`).
-/

namespace OpenFlux.Socks5

open App.Socks5 (portBytes connect connectTarget connectRequest greeting InetSocketAddress)

/-! ### Requests -/

theorem toNat_portBytes {port : ℕ} (h : port < 65536) :
    (beUint16 (UInt8.ofNat (port >>> 8)) (UInt8.ofNat port)).toNat = port := by
  rw [toNat_beUint16, UInt8.toNat_ofNat', UInt8.toNat_ofNat', Nat.shiftRight_eq_div_pow]
  omega

/-- The request for a host. -/
def hostRequest (host : Bytes) (port : ℕ) : Bytes :=
  5 :: 1 :: 0 :: 3 :: UInt8.ofNat host.length :: (host ++ portBytes port)

theorem length_hostRequest (host : Bytes) (port : ℕ) :
    (hostRequest host port).length = host.length + 7 := by
  simp [hostRequest, portBytes]

/-- What `connect` accepts, and the request it makes. -/
theorem connect_eq_ok_iff {host request : Bytes} {port : ℕ} :
    connect host port = .ok request ↔
      (1 ≤ port ∧ port ≤ 65535) ∧ (1 ≤ host.length ∧ host.length ≤ 255) ∧
        (∀ c ∈ host, 33 ≤ c ∧ c ≤ 126) ∧ request = hostRequest host port := by
  have hpos : host = [] ↔ ¬ 1 ≤ host.length := by
    rw [← List.length_eq_zero_iff]
    omega
  have hchars : host.all (fun c => 33 ≤ c ∧ c ≤ 126) = true ↔ ∀ c ∈ host, 33 ≤ c ∧ c ≤ 126 := by
    simp
  unfold connect
  by_cases hport : 1 ≤ port ∧ port ≤ 65535
  · rw [if_neg (not_not.mpr hport)]
    by_cases hhost : host = [] ∨ 255 < host.length ∨ ¬ host.all (fun c => 33 ≤ c ∧ c ≤ 126)
    · rw [if_pos hhost]
      refine iff_of_false nofun fun h => ?_
      obtain ⟨-, ⟨hone, hle⟩, hall, -⟩ := h
      rcases hhost with hempty | hlong | hother
      · exact hpos.mp hempty hone
      · omega
      · exact hother (hchars.mpr hall)
    · rw [if_neg hhost]
      simp only [not_or, not_not] at hhost
      obtain ⟨hempty, hlong, hall⟩ := hhost
      have hone : 1 ≤ host.length := not_not.mp fun h => hempty (hpos.mpr h)
      constructor
      · intro h
        cases h
        exact ⟨hport, ⟨hone, by omega⟩, hchars.mp hall, rfl⟩
      · rintro ⟨-, -, -, rfl⟩
        rfl
  · rw [if_pos hport]
    exact iff_of_false nofun fun h => hport h.1

section Host

variable {host : Bytes} {port : ℕ}

theorem toNat_length (h : host.length ≤ 255) : (UInt8.ofNat host.length).toNat = host.length := by
  rw [UInt8.toNat_ofNat']
  omega

/-- A request that was read whole. -/
theorem targetAddr_hostRequest (hport : port < 65536) (hsize : 3 ≤ host.length)
    (hle : host.length ≤ 255) :
    targetAddr (hostRequest host port) =
      some (host ++ literal ":" ++ decimal port) := by
  have hlen := length_hostRequest host port
  have hhost : ((hostRequest host port).drop 5).take host.length = host := List.take_left
  have hhigh : (hostRequest host port).getD (5 + host.length) 0 = UInt8.ofNat (port >>> 8) := by
    rw [Nat.add_comm]
    simp [hostRequest, portBytes, List.getD_eq_getElem?_getD]
  have hlow : (hostRequest host port).getD (6 + host.length) 0 = UInt8.ofNat port := by
    rw [Nat.add_comm]
    simp [hostRequest, portBytes, List.getD_eq_getElem?_getD]
  have hname : ((hostRequest host port).getD 4 0).toNat = host.length := toNat_length hle
  have hkind : (hostRequest host port).getD 3 0 = 0x03 := rfl
  unfold targetAddr
  rw [if_neg (by rw [hlen]; exact not_or.mpr ⟨by omega, not_not.mpr rfl⟩),
    if_neg (by rw [hkind]; decide), if_pos hkind]
  simp only [hname, hhigh, hlow, toNat_portBytes hport, hhost]
  rw [if_neg (by rw [hlen]; omega)]

/-- What is read of a request that is too short or too long. -/
theorem targetAddr_hostRequest_eq_none (hle : host.length ≤ 255)
    (hsize : host.length < 3 ∨ 249 < host.length) :
    targetAddr ((hostRequest host port).take 256) = none := by
  have hlen := length_hostRequest host port
  have hname : (((hostRequest host port).take 256).getD 4 0).toNat = host.length :=
    toNat_length hle
  unfold targetAddr
  rcases hsize with hshort | hlong
  · exact if_pos (.inl (by rw [List.length_take]; omega))
  · have hkind : ((hostRequest host port).take 256).getD 3 0 = 0x03 := rfl
    rw [if_neg (by rw [List.length_take]; exact not_or.mpr ⟨by omega, not_not.mpr rfl⟩),
      if_neg (by rw [hkind]; decide), if_pos hkind]
    simp only [hname]
    exact if_pos (.inr (by rw [List.length_take]; omega))

end Host

theorem targetAddr_ipv4 (a b c d : UInt8) (port : Fin 65536) :
    targetAddr ([5, 1, 0, 1, a, b, c, d] ++ portBytes port) =
      some (decimal a.toNat ++ literal "." ++ decimal b.toNat ++ literal "." ++ decimal c.toNat ++
        literal "." ++ decimal d.toNat ++ literal ":" ++ decimal port) := by
  have hport := toNat_portBytes port.isLt
  show some (_ ++ decimal (beUint16 _ _).toNat) = _
  simp only [portBytes, List.cons_append, List.nil_append, List.getD_cons_succ, List.getD_cons_zero]
  rw [hport]

/-! ### Connections -/

theorem read_of_length_le {size : ℕ} {segment : Bytes} (h : segment.length ≤ size)
    (segments : List Bytes) : read size (segment :: segments) = some (segment, segments) := if_pos h

/-- What is done for a request. -/
def dialedOutcome (dial : Bytes → Bool) (addr : Bytes) (segments : List Bytes) : Outcome :=
  if dial addr then {
    replies := [[0x05, 0x00], [0x05, 0x00, 0x00, 0x01, 0x00, 0x00, 0x00, 0x00, 0x00, 0x00]]
    dialed := some addr
    relayed := some segments }
  else {
    replies := [[0x05, 0x00], [0x05, 0x04, 0x00, 0x01, 0x00, 0x00, 0x00, 0x00, 0x00, 0x00]]
    dialed := some addr }

theorem dialed_dialedOutcome (dial : Bytes → Bool) (addr : Bytes) (segments : List Bytes) :
    (dialedOutcome dial addr segments).dialed = some addr := by
  unfold dialedOutcome
  split_ifs <;> rfl

theorem handleConnection_eq {dial : Bytes → Bool} {segments segments' rest : List Bytes}
    {hello request : Bytes} (hhello : read 256 segments = some (hello, segments'))
    (htwo : 2 ≤ hello.length) (hversion : hello.getD 0 0 = 0x05)
    (hrequest : read 256 segments' = some (request, rest)) :
    handleConnection dial segments =
      match targetAddr request with
      | none => { replies := [[0x05, 0x00]] }
      | some addr => dialedOutcome dial addr rest := by
  unfold handleConnection
  simp only [hhello, hrequest, if_neg (not_or.mpr ⟨Nat.not_lt.mpr htwo, not_not.mpr hversion⟩)]
  rfl

/-- What was read when the dialer is called. -/
theorem exists_of_dialed {dial : Bytes → Bool} {segments : List Bytes} {addr : Bytes}
    (h : (handleConnection dial segments).dialed = some addr) :
    ∃ hello segments' request rest, read 256 segments = some (hello, segments') ∧
      2 ≤ hello.length ∧ hello.getD 0 0 = 0x05 ∧ read 256 segments' = some (request, rest) ∧
      targetAddr request = some addr ∧
      handleConnection dial segments = dialedOutcome dial addr rest := by
  cases hhello : read 256 segments with
  | none =>
    simp only [handleConnection, hhello] at h
    cases h
  | some r =>
    obtain ⟨hello, segments'⟩ := r
    by_cases hbad : hello.length < 2 ∨ hello.getD 0 0 ≠ 0x05
    · simp only [handleConnection, hhello, if_pos hbad] at h
      cases h
    · obtain ⟨htwo, hversion⟩ := not_or.mp hbad
      replace htwo := Nat.not_lt.mp htwo
      replace hversion := not_not.mp hversion
      cases hrequest : read 256 segments' with
      | none =>
        simp only [handleConnection, hhello, if_neg hbad, hrequest] at h
        cases h
      | some r =>
        obtain ⟨request, rest⟩ := r
        have hhandle := @handleConnection_eq dial _ _ _ _ _ hhello htwo hversion hrequest
        rw [hhandle] at h
        cases htarget : targetAddr request with
        | none =>
          simp only [htarget] at h
          cases h
        | some addr' =>
          simp only [htarget, dialed_dialedOutcome, Option.some.injEq] at h hhandle
          exact ⟨hello, segments', request, rest, rfl, htwo, hversion, hrequest, h ▸ htarget,
            h ▸ hhandle⟩

/-- The server, when the greeting was a segment of its own. -/
theorem dialed_handleConnection (dial : Bytes → Bool) {hello : Bytes} (hle : hello.length ≤ 256)
    (htwo : 2 ≤ hello.length) (hversion : hello.getD 0 0 = 0x05) (request : Bytes)
    (segments : List Bytes) :
    (handleConnection dial (hello :: request :: segments)).dialed =
      targetAddr (request.take 256) := by
  have hread : ∃ rest, read 256 (request :: segments) = some (request.take 256, rest) := by
    rw [read]
    split_ifs with hlen
    · exact ⟨segments, by rw [List.take_of_length_le hlen]⟩
    · exact ⟨_, rfl⟩
  obtain ⟨rest, hread⟩ := hread
  rw [handleConnection_eq (read_of_length_le hle _) htwo hversion hread]
  cases targetAddr (request.take 256) with
  | none => rfl
  | some addr => exact dialed_dialedOutcome dial addr rest

/-- **The client and the server**, when each message of the client is read at once: for a host that
`connect` accepts the server dials the host and the port exactly if the host has 3 to 249
characters; for an IPv4 address it always does. -/
theorem dialed_iff (dial : Bytes → Bool) :
    (∀ host port request, connect host port = .ok request →
      ((handleConnection dial [greeting, request]).dialed =
          some (host ++ literal ":" ++ decimal port) ↔ 3 ≤ host.length ∧ host.length ≤ 249)) ∧
    ∀ a b c d port request,
      connectTarget { inet4 := some (a, b, c, d), port } = .ok request →
      (handleConnection dial [greeting, request]).dialed =
        some (decimal a.toNat ++ literal "." ++ decimal b.toNat ++ literal "." ++
          decimal c.toNat ++ literal "." ++ decimal d.toNat ++ literal ":" ++ decimal port) := by
  constructor
  · intro host port request hconnect
    obtain ⟨hport, ⟨-, hle⟩, -, rfl⟩ := connect_eq_ok_iff.mp hconnect
    rw [dialed_handleConnection dial (by decide) (by decide) rfl]
    by_cases hsize : 3 ≤ host.length ∧ host.length ≤ 249
    · refine iff_of_true ?_ hsize
      rw [List.take_of_length_le (by rw [length_hostRequest]; omega)]
      exact targetAddr_hostRequest (by omega) hsize.1 hle
    · refine iff_of_false ?_ hsize
      rw [targetAddr_hostRequest_eq_none hle (by omega)]
      nofun
  · rintro a b c d port request ⟨⟩
    rw [dialed_handleConnection dial (by decide) (by decide) rfl]
    exact targetAddr_ipv4 a b c d port

/-- A host of eleven characters. -/
theorem dialed_iff_example :
    (handleConnection (fun _ => true)
        [greeting, hostRequest (literal "example.com") 443]).dialed =
      some (literal "example.com" ++ literal ":" ++ decimal (443 : ℕ)) ↔
    3 ≤ (literal "example.com").length ∧ (literal "example.com").length ≤ 249 :=
  (dialed_iff fun _ => true).1 (literal "example.com") 443 _
    (connect_eq_ok_iff.mpr
      ⟨by decide, by decide, List.all_iff_forall_prop.mp (by decide), rfl⟩)

/-- A host of two characters makes a request of nine bytes, which is refused. -/
theorem not_dialed_two : ∃ request, connect (literal "ab") 80 = .ok request ∧
    (handleConnection (fun _ => true) [greeting, request]).dialed = none :=
  ⟨hostRequest (literal "ab") 80,
    connect_eq_ok_iff.mpr
      ⟨by decide, by decide, List.all_iff_forall_prop.mp (by decide), rfl⟩,
    by decide⟩

/-! ### The answer -/

/-- The app takes the answer as it is meant. -/
theorem connectRequest_replies {dial : Bytes → Bool} {segments : List Bytes} {addr : Bytes}
    (h : (handleConnection dial segments).dialed = some addr) :
    connectRequest (handleConnection dial segments).replies.flatten =
      if dial addr then .ok [] else .error "SOCKS5 connect failed (reply 4)" := by
  obtain ⟨_, _, _, segments', -, -, -, -, -, hhandle⟩ := exists_of_dialed h
  rw [hhandle]
  by_cases hdial : dial addr = true
  · rw [if_pos hdial, dialedOutcome, if_pos hdial]
    rfl
  · rw [if_neg hdial, dialedOutcome, if_neg hdial]
    have hreply : "SOCKS5 connect failed (reply " ++ toString (4 : ℤ) ++ ")" =
        "SOCKS5 connect failed (reply 4)" := by decide
    exact congrArg Except.error hreply

end OpenFlux.Socks5
