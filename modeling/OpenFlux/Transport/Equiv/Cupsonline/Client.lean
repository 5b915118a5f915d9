import OpenFlux.Algorithm.JsonText
import OpenFlux.Transport.Cupsonline.Client

/-!
# A client joins the rooms that were packed

The packed list is Base64 without a question mark, so as a URL it has no query, and it is taken for
the list itself; as the parameter `rooms` of a URL it is the first that is tried.
-/

namespace OpenFlux.Transport.Cupsonline

variable {L : Libs} {rooms : List RoomUUID}

/-- The list that `packRooms` writes is read as it was. -/
def ReadsRooms (L : Libs) : Prop :=
  ∀ rooms : List RoomUUID, L.readJson (marshalStrings (rooms.map RoomUUID.bytes)) =
    some (.arr (rooms.map fun room => .str room.bytes))

/-! ### Packing and unpacking -/

theorem unmarshalStrings_map (ids : List Bytes) :
    unmarshalStrings (.arr (ids.map .str)) = some ids := by
  rw [unmarshalStrings, mapM_eq_some_iff, List.map_map]
  rfl

theorem unpackRooms_packRooms (hread : ReadsRooms L) (rooms : List RoomUUID) :
    unpackRooms L (packRooms rooms) = some (rooms.map RoomUUID.bytes) := by
  have hmap : (rooms.map fun room => Json.str room.bytes) =
      (rooms.map RoomUUID.bytes).map .str := by
    rw [List.map_map]
    rfl
  rw [unpackRooms, packRooms, encodeRawURL_eq, Base64.decode_encode, Option.bind_some, hread,
    Option.bind_some, hmap, unmarshalStrings_map]

theorem packRooms_ne_nil (rooms : List RoomUUID) : packRooms rooms ≠ [] := by
  rw [packRooms, encodeRawURL_eq]
  exact Base64.encode_eq_nil_iff.not.mpr nofun

/-- As a URL the list has no query. -/
theorem queryRooms_packRooms (rooms : List RoomUUID) : queryRooms L (packRooms rooms) = [] := by
  have hmark : 0x3F ∉ packRooms rooms := fun hmem =>
    absurd (urlAlphabet_range _ (encodeRawURL_subset _ _ hmem)) (by decide)
  rw [queryRooms]
  cases hparse : URL.parse L.authorityOk (packRooms rooms) with
  | none => rfl
  | some rawQuery =>
    rw [URL.parse_eq_nil hmark hparse]
    rfl

/-! ### The client -/

/-- The calls of `authorize` with these URLs in turn, and what they answer. -/
inductive Answers {α ω : Type} (authorize : Bytes → ω → Except String α × ω) :
    ω → List Bytes → List (Except String α) → ω → Prop
  | nil (w : ω) : Answers authorize w [] [] w
  | cons {w w₁ w₂ : ω} {u : Bytes} {answer : Except String α} {urls : List Bytes}
      {answers : List (Except String α)} (hcall : authorize u w = (answer, w₁))
      (hrest : Answers authorize w₁ urls answers w₂) :
      Answers authorize w (u :: urls) (answer :: answers) w₂

section Join

variable {α ω : Type} {authorize : Bytes → ω → Except String α × ω}

variable (authorize) in
/-- The loop calls `authorize` with each URL once and keeps what it answers without an error. -/
theorem answers_joinRooms (urls : List Bytes) (w : ω) :
    ∃ answers, Answers authorize w urls answers (joinRooms authorize urls w).2 ∧
      (joinRooms authorize urls w).1 = answers.filterMap Except.toOption := by
  induction urls generalizing w with
  | nil => exact ⟨[], .nil w, rfl⟩
  | cons u urls ih =>
    cases hcall : authorize u w with
    | mk answer w₁ =>
      obtain ⟨answers, hanswers, hkept⟩ := ih w₁
      refine ⟨answer :: answers, ?_⟩
      rw [joinRooms, hcall]
      cases answer with
      | error err => exact ⟨.cons hcall hanswers, hkept⟩
      | ok a => exact ⟨.cons hcall hanswers, congrArg (a :: ·) hkept⟩

/-- Where each call answers, and with what belongs to its URL, nothing is missing. -/
theorem Answers.map_filterMap {β : Type} {f : α → β} {g : Bytes → β} {w w' : ω} {urls : List Bytes}
    {answers : List (Except String α)} (h : Answers authorize w urls answers w')
    (hok : ∀ u ∈ urls, ∀ w, ∃ a, (authorize u w).1 = .ok a ∧ f a = g u) :
    (answers.filterMap Except.toOption).map f = urls.map g := by
  induction h with
  | nil => rfl
  | @cons w w₁ w₂ u answer urls answers hcall hrest ih =>
    obtain ⟨hhead, htail⟩ := List.forall_mem_cons.mp hok
    obtain ⟨a, ha, hfa⟩ := hhead w
    rw [hcall] at ha
    obtain rfl : answer = .ok a := ha
    have hkept : (Except.ok a :: answers).filterMap Except.toOption =
        a :: answers.filterMap Except.toOption := rfl
    rw [hkept, List.map_cons, List.map_cons, ih htail, hfa]

end Join

/-- The URL is the packed list, or has it as its parameter `rooms`. -/
def HasRooms (L : Libs) (rawURL packed : Bytes) : Prop :=
  rawURL = packed ∨ ∃ rawQuery, URL.parse L.authorityOk rawURL = some rawQuery ∧
    URL.get (URL.parseQuery rawQuery) (literal "rooms") = packed

theorem urlRooms_of_hasRooms (hread : ReadsRooms L) (hne : rooms ≠ []) {rawURL : Bytes}
    (h : HasRooms L rawURL (packRooms rooms)) :
    urlRooms L rawURL = rooms.map RoomUUID.bytes := by
  have hids : rooms.map RoomUUID.bytes ≠ [] := List.map_eq_nil_iff.not.mpr hne
  rcases h with rfl | ⟨rawQuery, hparse, hget⟩
  · rw [urlRooms, if_neg (packRooms_ne_nil rooms), if_pos (queryRooms_packRooms rooms),
      unpackRooms_packRooms hread, Option.getD_some]
  · have hquery : queryRooms L rawURL = rooms.map RoomUUID.bytes := by
      rw [queryRooms, hparse]
      dsimp only
      rw [hget, if_pos (packRooms_ne_nil rooms), unpackRooms_packRooms hread, Option.getD_some]
    have hurl : rawURL ≠ [] := by
      rintro rfl
      have hnil : rawQuery = [] := URL.parse_eq_nil List.not_mem_nil hparse
      rw [hnil] at hget
      exact packRooms_ne_nil rooms hget.symm
    rw [urlRooms, if_neg hurl, hquery, if_neg hids]

/-- The URL that a client joins a room with. -/
def roomURL (room : RoomUUID) : Bytes := baseRoomURL ++ literal "?room=" ++ room.bytes

/-- **The rooms of a client**: given the list that `packRooms` printed, or a URL with it, a client
has no error.  `Start` asks for these rooms in this order and joins those that it gets an answer
for; where every room's page answers with the id of this room, it joins exactly these. -/
theorem joined_of_hasRooms (hread : ReadsRooms L) (hne : rooms ≠ []) {rawURL : Bytes}
    (h : HasRooms L rawURL (packRooms rooms)) {α ω : Type}
    (authorize : Bytes → ω → Except String α × ω) (w : ω) :
    let t := newCupsonlineTransport L rawURL true
    t.clientErr = none ∧
    (∃ answers, Answers authorize w (rooms.map roomURL) answers (t.start authorize w).2 ∧
      (t.start authorize w).1 =
        if answers.filterMap Except.toOption = [] then .error "no rooms joined"
        else .ok (answers.filterMap Except.toOption)) ∧
    ∀ roomUUID : α → Bytes, (∀ room ∈ rooms, ∀ w, ∃ a,
        (authorize (roomURL room) w).1 = .ok a ∧ roomUUID a = room.bytes) →
      ∃ auths, (t.start authorize w).1 = .ok auths ∧
        auths.map roomUUID = rooms.map RoomUUID.bytes := by
  intro t
  have hids : rooms.map RoomUUID.bytes ≠ [] := List.map_eq_nil_iff.not.mpr hne
  have ht : t = { isClient := true, urls := rooms.map roomURL } := by
    show newCupsonlineTransport L rawURL true = _
    rw [newCupsonlineTransport, if_pos rfl, urlRooms_of_hasRooms hread hne h]
    dsimp only
    rw [if_neg hids, List.map_map]
    rfl
  obtain ⟨answers, hanswers, hjoined⟩ := answers_joinRooms authorize (rooms.map roomURL) w
  have hstart : t.start authorize w =
      (if answers.filterMap Except.toOption = [] then .error "no rooms joined"
        else .ok (answers.filterMap Except.toOption),
        (joinRooms authorize (rooms.map roomURL) w).2) := by
    rw [ht, Client.start]
    dsimp only
    rw [hjoined]
    simp only [List.isEmpty_iff]
  refine ⟨by rw [ht], ⟨answers, ?_, by rw [hstart]⟩, fun roomUUID hok => ?_⟩
  · rw [hstart]
    exact hanswers
  · have hall : (answers.filterMap Except.toOption).map roomUUID = rooms.map RoomUUID.bytes := by
      have hdrop : ∀ room : RoomUUID,
          (roomURL room).drop (baseRoomURL ++ literal "?room=").length = room.bytes :=
        fun room => List.drop_left
      have hmap := hanswers.map_filterMap (f := roomUUID)
        (g := fun u => u.drop (baseRoomURL ++ literal "?room=").length)
        (List.forall_mem_map.mpr fun room hroom w => by rw [hdrop]; exact hok room hroom w)
      rw [hmap, List.map_map]
      exact List.map_congr_left fun room _ => hdrop room
    have hsome : answers.filterMap Except.toOption ≠ [] := by
      intro hnil
      rw [hnil] at hall
      exact hids hall.symm
    exact ⟨_, by rw [hstart, if_neg hsome], hall⟩

/-! ### A reader of the list -/

theorem escape_of_isRoomChar {c : UInt8} (h : isRoomChar c = true) :
    JsonText.escape c = [c] := by
  have hrange : 0x20 ≤ c ∧ c ≠ 0x22 ∧ c ≠ 0x5C := by
    simp only [isRoomChar, Bool.or_eq_true, Bool.and_eq_true, decide_eq_true_iff, beq_iff_eq,
      UInt8.le_iff_toNat_le, UInt8.reduceToNat] at h
    refine ⟨?_, ?_, ?_⟩
    · rw [UInt8.le_iff_toNat_le]
      show 0x20 ≤ c.toNat
      rcases h with h | rfl
      · omega
      · decide
    · rintro rfl
      revert h
      decide
    · rintro rfl
      revert h
      decide
  rw [JsonText.escape, if_neg (not_or.mpr hrange.2), if_neg (UInt8.not_lt.mpr hrange.1)]

theorem writeString_bytes (room : RoomUUID) :
    JsonText.writeString room.bytes = room.bytes ++ [0x22] := by
  have hescape : room.bytes.flatMap JsonText.escape = room.bytes.flatMap fun c => [c] :=
    List.flatMap_congr fun c hc => escape_of_isRoomChar (room.chars c hc)
  rw [JsonText.writeString, hescape, List.flatMap_singleton']

theorem joinItems_append (room : RoomUUID) (rooms : List RoomUUID) :
    joinItems ((room :: rooms).map fun room => [0x22] ++ room.bytes ++ [0x22]) ++ [0x5D] =
      JsonText.write (.str room.bytes) ++
        JsonText.writeItems (rooms.map fun room => .str room.bytes) := by
  induction rooms generalizing room with
  | nil =>
    show [0x22] ++ room.bytes ++ [0x22] ++ [0x5D] =
      0x22 :: JsonText.writeString room.bytes ++ [0x5D]
    rw [writeString_bytes]
    rfl
  | cons next rooms ih =>
    show [0x22] ++ room.bytes ++ [0x22] ++ [0x2C] ++ _ ++ [0x5D] =
      0x22 :: JsonText.writeString room.bytes ++ 0x2C :: (_ ++ _)
    rw [List.append_assoc, ih next, writeString_bytes]
    simp

theorem marshalStrings_eq_write (rooms : List RoomUUID) :
    marshalStrings (rooms.map RoomUUID.bytes) =
      JsonText.write (.arr (rooms.map fun room => .str room.bytes)) := by
  rw [marshalStrings, List.map_map]
  cases rooms with
  | nil => rfl
  | cons room rooms =>
    rw [List.append_assoc]
    exact congrArg (0x5B :: ·) (joinItems_append room rooms)

/-- A reader of JSON, and any authority. -/
def plainLibs : Libs where
  readJson := JsonText.read
  authorityOk _ := true

theorem readsRooms_plainLibs : ReadsRooms plainLibs := by
  intro rooms
  rw [marshalStrings_eq_write]
  exact JsonText.read_write _

/-- Two rooms. -/
def sampleRooms : List RoomUUID :=
  [⟨literal "0123456789abcdef0123-0123456789-0123", by decide, List.all_eq_true.mp (by decide)⟩,
    ⟨literal "------------------------------------", by decide, List.all_eq_true.mp (by decide)⟩]

/-- A service that answers for every room. -/
def answersAll (u : Bytes) (calls : List Bytes) : Except String Bytes × List Bytes :=
  (.ok (u.drop (baseRoomURL ++ literal "?room=").length), calls ++ [u])

theorem joined_of_hasRooms_query :
    let rawURL := literal "https://interview.cups.online/?x=1&rooms=" ++ packRooms sampleRooms
    (newCupsonlineTransport plainLibs rawURL true).clientErr = none ∧
      ∃ auths, ((newCupsonlineTransport plainLibs rawURL true).start answersAll []).1 = .ok auths ∧
        auths.map id = sampleRooms.map RoomUUID.bytes := by
  intro rawURL
  have hrooms : HasRooms plainLibs rawURL (packRooms sampleRooms) :=
    .inr ⟨literal "x=1&rooms=" ++ packRooms sampleRooms, by decide +kernel, by decide +kernel⟩
  obtain ⟨hnone, -, hall⟩ :=
    joined_of_hasRooms readsRooms_plainLibs (List.cons_ne_nil _ _) hrooms answersAll []
  exact ⟨hnone, hall id fun room _ w => ⟨room.bytes, congrArg Except.ok List.drop_left, rfl⟩⟩

end OpenFlux.Transport.Cupsonline
