import OpenFlux.Transport.DocsSession

/-!
# Which packets the document transports take for what they are

A message is a fixed text around the base64 text of a packet.  No marker with a character outside
the base64 alphabet occurs in it but where the fixed text spells it (`not_infix_message`), so a
packet is never taken for a keep-alive, a ping or an auth reply, and `cursorPayloadRe` finds it
(`cursorPayload_cursorMessage`).  The marker `saveChanges` consists of base64 characters alone: the
Yandex transport drops the packets whose text contains it (`handleMessage_packetMessage_iff`).
-/

namespace OpenFlux.Transport.Docs

open TextSearch

/-! ### The text of a message -/

/-- What comes before the text in the cursor. -/
def messageHead : Bytes := literal "42[\"message\",\x7b\"type\":\"cursor\",\"cursor\":\"18;"

/-- What comes after it. -/
def messageTail : Bytes := literal "\"\x7d]"

theorem cursorMessage_eq (payload : Bytes) :
    cursorMessage payload = messageHead ++ (payload ++ messageTail) := List.append_assoc ..

/-- A marker does not occur in a message if its first character is not in the text of the cursor
and the fixed parts avoid it. -/
theorem not_infix_message {c : UInt8} {w payload : Bytes} (hhead : Avoids (c :: w) messageHead)
    (hpayload : c ∉ payload) (htail : Avoids (c :: w) messageTail) :
    ¬ c :: w <:+: cursorMessage payload := by
  rw [cursorMessage_eq, hhead.infix_append_iff, (avoids_of_head hpayload).infix_append_iff,
    ← List.append_nil messageTail, htail.infix_append_iff, List.infix_nil]
  exact List.cons_ne_nil c w

/-- A marker of characters that are not in the tail occurs in a message exactly when it occurs in
the text of the cursor, if the head avoids it. -/
theorem infix_message_iff {w payload : Bytes} (hw : w ≠ []) (hhead : Avoids w messageHead)
    (htail : ∀ c ∈ w, c ∉ messageTail) : w <:+: cursorMessage payload ↔ w <:+: payload := by
  rw [cursorMessage_eq, hhead.infix_append_iff, infix_append_of_disjoint hw htail]

theorem cursor_infix_message (payload : Bytes) : literal "cursor" <:+: cursorMessage payload := by
  have hhead : literal "cursor" <:+: messageHead := by decide
  rw [cursorMessage_eq]
  exact hhead.trans (List.prefix_append messageHead _).isInfix

theorem cursorMessage_ne_short {payload s : Bytes} (hs : s.length < 3) :
    cursorMessage payload ≠ s := by
  rintro rfl
  rw [cursorMessage_eq, List.length_append] at hs
  have hlen : 3 ≤ messageHead.length := by decide
  omega

/-! ### The expression -/

theorem takeWhile_ne_append {c : UInt8} {s t : Bytes} (h : c ∉ s) :
    (s ++ c :: t).takeWhile (· ≠ c) = s ∧ (s ++ c :: t).dropWhile (· ≠ c) = c :: t := by
  have hall : ∀ x ∈ s, decide (x ≠ c) = true := fun x hx => decide_eq_true fun heq => h (heq ▸ hx)
  rw [List.takeWhile_append_of_pos hall, List.dropWhile_append_of_pos hall]
  simp

/-- A match from the position of the marker. -/
theorem matchCursor_marker {payload rest : Bytes} (hne : payload ≠ []) (hquote : 0x22 ∉ payload) :
    matchCursor (cursorMarker ++ (literal "18" ++ 0x3B :: (payload ++ 0x22 :: rest))) =
      some payload := by
  obtain ⟨c, payload, rfl⟩ := List.exists_cons_of_ne_nil hne
  have hmarker : cursorMarker.isPrefixOf
      (cursorMarker ++ (literal "18" ++ 0x3B :: (c :: payload ++ 0x22 :: rest))) = true :=
    List.isPrefixOf_iff_prefix.mpr (List.prefix_append _ _)
  obtain ⟨htake, hdrop⟩ := takeWhile_ne_append (c := 0x3B) (s := literal "18")
    (t := c :: payload ++ 0x22 :: rest) (by decide)
  obtain ⟨htake', hdrop'⟩ := takeWhile_ne_append (t := rest) hquote
  have hnumber : literal "18" = [0x31, 0x38] := by decide
  rw [matchCursor, if_pos hmarker, List.drop_left]
  dsimp only
  rw [htake, hdrop, hnumber]
  dsimp only
  rw [htake', hdrop']

theorem matchCursor_eq_none {s : Bytes} (h : ¬ cursorMarker <+: s) : matchCursor s = none :=
  if_neg fun hprefix => h (List.isPrefixOf_iff_prefix.mp hprefix)

/-- `cursorPayloadRe` finds the text of the cursor. -/
theorem cursorPayload_cursorMessage {payload : Bytes} (hne : payload ≠ [])
    (hquote : 0x22 ∉ payload) : cursorPayload (cursorMessage payload) = payload := by
  have hsplit : cursorMessage payload = literal "42[\"message\",\x7b\"type\":\"cursor\"," ++
      (cursorMarker ++ (literal "18" ++ 0x3B :: (payload ++ 0x22 :: literal "\x7d]"))) := by
    have hhead : messageHead = literal "42[\"message\",\x7b\"type\":\"cursor\"," ++
        (cursorMarker ++ (literal "18" ++ [0x3B])) := by decide
    have htail : messageTail = 0x22 :: literal "\x7d]" := by decide
    rw [cursorMessage_eq, hhead, htail]
    simp only [List.append_assoc, List.singleton_append]
  have havoids : Avoids cursorMarker (literal "42[\"message\",\x7b\"type\":\"cursor\",") := by decide
  rw [cursorPayload, hsplit, firstMatch_append (fun _ => matchCursor_eq_none) havoids,
    firstMatch_of_eq_some (matchCursor_marker hne hquote), Option.getD_some]

/-! ### Packets -/

theorem mem_stdEncoding {s : Bytes} {c : UInt8} (h : c ∈ Base64.encode stdEncoding s) :
    c ∈ stdAlphabet ∨ c = 0x3D :=
  (Base64.mem_encode h).imp_right fun h => (Option.some.inj h).symm

/-- The base64 text of a packet has no quote and no dash. -/
theorem notMem_encode {c : UInt8} (h : c ∉ stdAlphabet) (h' : c ≠ 0x3D) (s : Bytes) :
    c ∉ Base64.encode stdEncoding s := fun hmem => (mem_stdEncoding hmem).elim h h'

theorem receiveBase64_encode {p : Bytes} (hp : p ≠ []) :
    receiveBase64 (Base64.encode stdEncoding p) = .received p := by
  rw [receiveBase64, if_neg (mt Base64.encode_eq_nil_iff.mp hp), Base64.decode_encode]

/-- A message with no dash in the cursor passes the first checks of both transports. -/
theorem contains_keepAlive {payload : Bytes} (h : 0x2D ∉ payload) :
    contains (cursorMessage payload) (literal "---KA---") = false := by
  have hmarker : literal "---KA---" = 0x2D :: literal "--KA---" := by decide
  rw [Bool.eq_false_iff, Ne, contains_iff, hmarker]
  exact not_infix_message (by decide) h (by decide)

theorem contains_cursor (payload : Bytes) :
    contains (cursorMessage payload) (literal "cursor") = true :=
  contains_iff.mpr (cursor_infix_message payload)

/-! ### The two transports -/

/-- Keep-alives are dropped. -/
theorem handleMessage_keepAliveMsg (provider : Provider) :
    provider.handleMessage keepAliveMsg = .ignored := by
  have hka : contains keepAliveMsg (literal "---KA---") = true := by decide
  cases provider with
  | yandex =>
    show Yandex.handleMessage keepAliveMsg = _
    rw [Yandex.handleMessage, if_pos hka]
  | mailru =>
    show Mailru.handleMessage keepAliveMsg = _
    rw [Mailru.handleMessage, if_pos hka]

/-- Mail.ru takes every packet for what it is. -/
theorem mailru_handleMessage {p : Bytes} (hp : p ≠ []) :
    Mailru.handleMessage (packetMessage p) = .received p := by
  have hquote : 0x22 ∉ Base64.encode stdEncoding p := notMem_encode (by decide) (by decide) p
  have hresult : contains (packetMessage p) (literal "\"result\":1") = false := by
    have hmarker : literal "\"result\":1" = 0x22 :: literal "result\":1" := by decide
    rw [Bool.eq_false_iff, Ne, contains_iff, hmarker]
    exact not_infix_message (by decide) hquote (by decide)
  have hka : contains (packetMessage p) (literal "---KA---") = false :=
    contains_keepAlive (notMem_encode (by decide) (by decide) p)
  have hcursor : contains (packetMessage p) (literal "cursor") = true := contains_cursor _
  have hpayload : cursorPayload (packetMessage p) = Base64.encode stdEncoding p :=
    cursorPayload_cursorMessage (mt Base64.encode_eq_nil_iff.mp hp) hquote
  have hping : packetMessage p ≠ literal "2" := cursorMessage_ne_short (by decide)
  have hpong : packetMessage p ≠ literal "3" := cursorMessage_ne_short (by decide)
  rw [Mailru.handleMessage, hka, if_neg Bool.false_ne_true, if_neg hping, if_neg hpong, hresult,
    if_neg fun h => Bool.false_ne_true h.2, if_pos hcursor, hpayload, receiveBase64_encode hp]

/-- The Yandex transport finds nothing to decode in a packet's message that spells `saveChanges`,
and the packet in every other. -/
theorem extractBase64String_packetMessage {p : Bytes} (hp : p ≠ []) :
    Yandex.extractBase64String (packetMessage p) =
      if literal "saveChanges" <:+: Base64.encode stdEncoding p then []
      else Base64.encode stdEncoding p := by
  have hquote : 0x22 ∉ Base64.encode stdEncoding p := notMem_encode (by decide) (by decide) p
  have hsave : contains (packetMessage p) (literal "saveChanges") = true ↔
      literal "saveChanges" <:+: Base64.encode stdEncoding p := by
    rw [contains_iff]
    exact infix_message_iff (by decide) (by decide) (by decide +kernel)
  have hmarker : literal "\"excelAdditionalInfo\":\"" =
      0x22 :: literal "excelAdditionalInfo\":\"" := by decide
  have hindex : index (packetMessage p) (literal "\"excelAdditionalInfo\":\"") = none := by
    rw [hmarker]
    exact index_eq_none_of_not_infix (not_infix_message (by decide) hquote (by decide))
  rw [Yandex.extractBase64String]
  by_cases h : literal "saveChanges" <:+: Base64.encode stdEncoding p
  · rw [if_pos (hsave.mpr h), if_pos h]
    dsimp only
    rw [hindex]
  · rw [if_neg (mt hsave.mp h), if_neg h]
    exact cursorPayload_cursorMessage (mt Base64.encode_eq_nil_iff.mp hp) hquote

theorem yandex_handleMessage {p : Bytes} (hp : p ≠ []) :
    Yandex.handleMessage (packetMessage p) =
      if literal "saveChanges" <:+: Base64.encode stdEncoding p then .ignored else .received p := by
  have hka : contains (packetMessage p) (literal "---KA---") = false :=
    contains_keepAlive (notMem_encode (by decide) (by decide) p)
  have hcursor : contains (packetMessage p) (literal "cursor") = true := contains_cursor _
  have hping : packetMessage p ≠ literal "2" := cursorMessage_ne_short (by decide)
  have hpong : packetMessage p ≠ literal "3" := cursorMessage_ne_short (by decide)
  rw [Yandex.handleMessage, hka, if_neg Bool.false_ne_true, if_neg hping, if_neg hpong,
    if_pos (.inr hcursor), extractBase64String_packetMessage hp]
  split_ifs
  · rfl
  · exact receiveBase64_encode hp

/-- **Which packets arrive**: the message of a packet makes the peer call its receive callback with
that packet, exactly if the transport is Mail.ru or the base64 text of the packet does not contain
`saveChanges`. -/
theorem handleMessage_packetMessage_iff {provider : Provider} {p : Bytes} (hp : p ≠ []) :
    provider.handleMessage (packetMessage p) = .received p ↔
      provider = .mailru ∨ ¬ literal "saveChanges" <:+: Base64.encode stdEncoding p := by
  cases provider with
  | yandex =>
    show Yandex.handleMessage _ = _ ↔ _
    rw [yandex_handleMessage hp]
    split_ifs with h
    · exact iff_of_false nofun (by simp [h])
    · exact iff_of_true rfl (.inr h)
  | mailru => exact iff_of_true (mailru_handleMessage hp) (.inl rfl)

theorem handleMessage_packetMessage_short :
    Provider.yandex.handleMessage (packetMessage [1, 2, 3]) = .received [1, 2, 3] :=
  (handleMessage_packetMessage_iff (by decide)).mpr (.inr (by decide))

/-- Nine bytes whose base64 text is `saveChangesA`. -/
def saveChangesPacket : Bytes := [0xB1, 0xAB, 0xDE, 0x0A, 0x16, 0xA7, 0x81, 0xEB, 0x00]

theorem saveChanges_packet_lost :
    Provider.yandex.handleMessage (packetMessage saveChangesPacket) ≠
      .received saveChangesPacket := by
  have hencode : Base64.encode stdEncoding saveChangesPacket = literal "saveChangesA" := by decide
  show Yandex.handleMessage _ ≠ _
  rw [yandex_handleMessage (by decide), hencode, if_pos (by decide)]
  exact nofun

end OpenFlux.Transport.Docs
