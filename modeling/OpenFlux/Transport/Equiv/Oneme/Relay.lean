import OpenFlux.Algorithm.JsonText
import OpenFlux.Algorithm.TextSearch
import OpenFlux.Transport.Equiv.Oneme.CallHandler
import OpenFlux.Transport.Oneme.Relay

/-!
# Payloads reach the other peer

Under the assumptions on the signalling provider (`Notifies`) no payload is caught by a filter of
`readLoop`, lost, doubled or changed on its way to `dcInbound`, whichever goroutine runs when.  They
keep their order if the goroutines run in the order in which they were started (`relayed`), and not
otherwise: `go h.msgHandler(text)` lets a later one overtake.
-/

namespace OpenFlux.Transport.Oneme

variable {F PC DC : Type}

/-! ### The command -/

open CallHandler

/-- The value of the command of `injectICE`. -/
def commandJson (seq localID : Int64) (payload : Bytes) : Json :=
  .obj [(literal "command", .str (literal "transmit-data")),
    (literal "sequence", .num seq.toInt),
    (literal "participantId", .num localID.toInt),
    (literal "data", .obj [(literal "candidate",
      .obj [(literal "candidate", .str (Base64.encode stdEncoding payload))])]),
    (literal "participantType", .str (literal "USER"))]

theorem mem_encode_std {payload : Bytes} {c : UInt8} (hc : c ∈ Base64.encode stdEncoding payload) :
    c ∈ stdAlphabet ++ [0x3D] := by
  rcases Base64.mem_encode hc with h | h
  · exact List.mem_append_left _ h
  · obtain rfl : 0x3D = c := Option.some.inj h
    exact List.mem_append_right _ (List.mem_singleton_self _)

/-- Nothing in base64 is escaped. -/
theorem writeString_encode (payload : Bytes) :
    JsonText.writeString (Base64.encode stdEncoding payload) =
      Base64.encode stdEncoding payload ++ [0x22] := by
  have hplain : ∀ c ∈ stdAlphabet ++ [0x3D], JsonText.escape c = [c] := by decide +kernel
  rw [JsonText.writeString, List.flatMap_congr fun c hc => hplain c (mem_encode_std hc),
    List.flatMap_singleton']

/-- The command that `Sprintf` puts together is a JSON text. -/
theorem injectCommand_eq (seq localID : Int64) (payload : Bytes) :
    injectCommand seq localID payload = JsonText.write (commandJson seq localID payload) := by
  have hcommand : literal "\x7b\"command\":\"transmit-data\",\"sequence\":" =
      0x7B :: 0x22 :: (JsonText.writeString (literal "command") ++ 0x3A :: 0x22 ::
        (JsonText.writeString (literal "transmit-data") ++ 0x2C :: 0x22 ::
          (JsonText.writeString (literal "sequence") ++ [0x3A]))) := by decide +kernel
  have hparticipant : literal ",\"participantId\":" =
      0x2C :: 0x22 :: (JsonText.writeString (literal "participantId") ++ [0x3A]) := by
    decide +kernel
  have hdata : literal ",\"data\":\x7b\"candidate\":\x7b\"candidate\":\"" =
      0x2C :: 0x22 :: (JsonText.writeString (literal "data") ++ 0x3A :: 0x7B :: 0x22 ::
        (JsonText.writeString (literal "candidate") ++ 0x3A :: 0x7B :: 0x22 ::
          (JsonText.writeString (literal "candidate") ++ [0x3A, 0x22]))) := by decide +kernel
  have htype : literal "\"\x7d\x7d,\"participantType\":\"USER\"\x7d" =
      0x22 :: 0x7D :: 0x7D :: 0x2C :: 0x22 ::
        (JsonText.writeString (literal "participantType") ++ 0x3A :: 0x22 ::
          (JsonText.writeString (literal "USER") ++ [0x7D])) := by decide +kernel
  simp only [injectCommand, commandJson, JsonText.write, JsonText.writeMember,
    JsonText.writeMembers, JsonText.decimal_eq, writeString_encode, hcommand, hparticipant, hdata,
    htype, List.append_assoc, List.cons_append, List.nil_append]

theorem read_injectCommand (seq localID : Int64) (payload : Bytes) :
    JsonText.read (injectCommand seq localID payload) = some (commandJson seq localID payload) := by
  rw [injectCommand_eq, JsonText.read_write]

/-- No digit and no sign begins what `readLoop` takes for an acceptance. -/
theorem notMem_decimal (n : ℤ) : 0x61 ∉ decimal n := by
  rw [JsonText.decimal_eq]
  exact JsonText.notMem_writeInt (by decide) (by decide) n

/-- No payload makes a command look like an acceptance. -/
theorem not_contains_injectCommand (seq localID : Int64) (payload : Bytes) :
    contains (injectCommand seq localID payload) (literal "accepted-call") = false := by
  have hacceptance : literal "accepted-call" = 0x61 :: literal "ccepted-call" := by decide +kernel
  have hdecimal (n : ℤ) : TextSearch.Avoids (literal "accepted-call") (decimal n) :=
    hacceptance ▸ TextSearch.avoids_of_head (notMem_decimal n)
  have hcommand : TextSearch.Avoids (literal "accepted-call")
      (literal "\x7b\"command\":\"transmit-data\",\"sequence\":") := by decide +kernel
  have hparticipant : TextSearch.Avoids (literal "accepted-call")
      (literal ",\"participantId\":") := by decide +kernel
  have hdata : TextSearch.Avoids (literal "accepted-call")
      (literal ",\"data\":\x7b\"candidate\":\x7b\"candidate\":\"") := by decide +kernel
  apply Bool.eq_false_iff.mpr
  rw [Ne, contains_iff, injectCommand]
  simp only [List.append_assoc]
  rw [hcommand.infix_append_iff, (hdecimal _).infix_append_iff, hparticipant.infix_append_iff,
    (hdecimal _).infix_append_iff, hdata.infix_append_iff]
  -- behind that there is no hyphen
  intro hoccurs
  have hhyphen : (0x2D : UInt8) ∈ literal "accepted-call" := by decide +kernel
  rcases List.mem_append.mp (hoccurs.subset hhyphen) with h | h
  · exact absurd (mem_encode_std h) (by decide +kernel)
  · revert h
    decide +kernel

/-! ### Notifications -/

/-- `encoding/json` reads the commands that are written, and finds the payload in their `data`. -/
def RoundTrips (unmarshal : Bytes → Option (GoMap F)) : Prop :=
  ∀ seq localID payload, ∃ m, unmarshal (injectCommand seq localID payload) = some m ∧
    m.lookup (literal "data") = .map [(literal "candidate",
      .map [(literal "candidate", .str (Base64.encode stdEncoding payload))])]

/-- The provider passes a command on as a notification with the same `data`, which is not about the
conversation and brings no acceptance of its own. -/
structure Notifies (unmarshal : Bytes → Option (GoMap F)) (command text : Bytes) : Prop where
  data : ∀ m, unmarshal command = some m → ∃ m', unmarshal text = some m' ∧
    m'.lookup (literal "data") = m.lookup (literal "data") ∧
    m'.lookup (literal "type") = .str (literal "notification") ∧
    (∀ v, m'.lookup (literal "conversation") ≠ .map v) ∧
    ∀ v, m'.lookup (literal "conversationParams") ≠ .map v
  named : contains text (literal "notification") = true
  accepted : contains text (literal "accepted-call") = true →
    contains command (literal "accepted-call") = true

/-- A notification with the payload. -/
structure Carries (data : GoMap F) (payload : Bytes) : Prop where
  candidate : data.lookup (literal "data") = .map [(literal "candidate",
    .map [(literal "candidate", .str (Base64.encode stdEncoding payload))])]
  conversation : ∀ v, data.lookup (literal "conversation") ≠ .map v
  params : ∀ v, data.lookup (literal "conversationParams") ≠ .map v

variable {lib : Library F PC DC} {unmarshal : Bytes → Option (GoMap F)}

/-- **No filter of `readLoop` catches a payload.** -/
theorem readMessage_notification (lib : Library F PC DC) (hjson : RoundTrips unmarshal)
    {seq localID : Int64} {payload text : Bytes}
    (hnotifies : Notifies unmarshal (injectCommand seq localID payload) text)
    (h : CallHandler F PC DC) : ∃ h' data, h.readMessage lib unmarshal text = (h', .go data) ∧
      Carries data payload ∧ h'.dcInbound = h.dcInbound := by
  obtain ⟨m, hm, hdata⟩ := hjson seq localID payload
  obtain ⟨m', hm', hsame, htype, hconversation, hparams⟩ := hnotifies.data m hm
  have hcarries : Carries m' payload := ⟨hsame.trans hdata, hconversation, hparams⟩
  have haccepted : ¬ contains text (literal "accepted-call") = true := by
    intro h
    have hcommand := hnotifies.accepted h
    rw [not_contains_injectCommand] at hcommand
    cases hcommand
  have hlength : 12 ≤ text.length := (contains_iff.mp hnotifies.named).length_le
  have hping : text ≠ literal "ping" := by
    rintro rfl
    exact absurd hlength (by decide)
  have hother : ∀ name ∈ [literal "response", literal "error"],
      (m'.lookup (literal "type")).asString ≠ some name := by
    rw [Dynamic.asString_eq_some.mpr htype]
    decide +kernel
  rw [readMessage, if_neg haccepted, if_neg hping, if_neg (by omega), hm']
  dsimp only
  rw [if_neg (hother _ (by decide +kernel)), if_neg (hother _ (by decide +kernel))]
  split
  · exact ⟨_, m', rfl, hcarries, rfl⟩
  · exact ⟨_, m', rfl, hcarries, rfl⟩

/-- The handler of such a notification calls `dcInbound` with the payload. -/
theorem msgHandler_notification {data : GoMap F} {payload : Bytes} (hdata : Carries data payload)
    (role : Role) (pauses : Pauses F PC DC role) {h : CallHandler F PC DC}
    (hset : h.dcInbound = true) :
    h.msgHandler lib role pauses data = some (h, some payload) := by
  have hfind (creator : Bool) : h.findLocalID lib creator data = some h := by
    have hnone := Dynamic.asMap_eq_none.mpr hdata.conversation
    rw [findLocalID, hnone]
    split <;> rfl
  have hparams := Dynamic.asMap_eq_none.mpr hdata.params
  have hcandidate : h.candidate lib
      [(literal "candidate", .str (Base64.encode stdEncoding payload))] =
        some (h, some payload) := by
    have hinjection : useICEInjection = true := rfl
    have hdecode := Base64.written_encode stdEncoding payload
    rw [candidate, if_pos hinjection, if_pos hset]
    exact congrArg (fun decode => some (h, some decode)) hdecode
  cases role with
  | caller =>
    show outgoingHandler lib pauses data h = _
    rw [outgoingHandler, hfind, Option.bind_eq_bind, Option.bind_some, hparams, hdata.candidate]
    exact hcandidate
  | receiver =>
    show incomingHandler lib pauses data h = _
    rw [incomingHandler, hfind, Option.bind_eq_bind, Option.bind_some, hparams, hdata.candidate]
    exact hcandidate

namespace Relay

variable {notify : ℕ → Bytes → Bytes} {role : Role} {s s' : Relay F PC DC}

/-- The payloads on their way, in the order in which they were sent. -/
def waiting (s : Relay F PC DC) : List Bytes := s.pending.map Prod.fst ++ s.wire.map Prod.fst

structure Inv (s : Relay F PC DC) : Prop where
  conn : s.sender.conn ≠ none
  inbound : s.receiver.dcInbound = true
  panicked : s.panicked = false
  wire : ∀ w ∈ s.wire, ∃ seq localID, w.2 = injectCommand seq localID w.1
  pending : ∀ g ∈ s.pending, Carries g.2 g.1

/-- The provider passes every command on. -/
def Provider (unmarshal : Bytes → Option (GoMap F)) (notify : ℕ → Bytes → Bytes) : Prop :=
  ∀ n seq localID payload, Notifies unmarshal (injectCommand seq localID payload)
    (notify n (injectCommand seq localID payload))

/-! ### What a step does -/

theorem send_eq (h : Inv s) (payload : Bytes) : ∃ sender text, s.send payload =
      { s with sender, wire := s.wire ++ [(payload, text)], sent := s.sent ++ [payload] } ∧
    sender.conn ≠ none ∧ ∃ seq localID, text = injectCommand seq localID payload := by
  obtain ⟨conn, hconn⟩ := Option.ne_none_iff_exists'.mp h.conn
  have hinjection : useICEInjection = true := rfl
  have hsend : s.sender.send payload = ({ s.sender with seq := s.sender.seq + 1 },
      some (.text conn (injectCommand s.sender.seq s.sender.localID payload))) := by
    rw [CallHandler.send, if_pos hinjection]
    simp only [injectICE, hconn]
    rfl
  refine ⟨{ s.sender with seq := s.sender.seq + 1 }, _, ?_, h.conn,
    s.sender.seq, s.sender.localID, rfl⟩
  rw [send, hsend]

theorem read_eq (hjson : RoundTrips unmarshal) (hprovider : Provider unmarshal notify) (h : Inv s)
    (hs' : s.read lib unmarshal notify = some s') : ∃ w wire receiver data,
      s.wire = w :: wire ∧ s' = { s with
        receiver
        wire
        passed := s.passed + 1
        pending := s.pending ++ [(w.1, data)] } ∧
      receiver.dcInbound = true ∧ Carries data w.1 := by
  unfold read at hs'
  split at hs'
  · cases hs'
  · next payload command wire hwire =>
    obtain ⟨seq, localID, hcommand⟩ := h.wire (payload, command) (by simp [hwire])
    obtain rfl : command = injectCommand seq localID payload := hcommand
    obtain ⟨receiver, data, hread, hdata, hset⟩ := readMessage_notification lib hjson
      (hprovider s.passed seq localID payload) s.receiver
    rw [hread] at hs'
    cases hs'
    exact ⟨_, wire, receiver, data, hwire, rfl, hset.trans h.inbound, hdata⟩

theorem handle_eq (h : Inv s) {i : ℕ} {pauses : Pauses F PC DC role}
    (hs' : s.handle lib i pauses = some s') : ∃ g, s.pending[i]? = some g ∧ s' = { s with
      pending := s.pending.eraseIdx i
      inbound := s.inbound ++ [g.1] } := by
  unfold handle at hs'
  split at hs'
  · cases hs'
  · next payload data hi =>
    have hdata := h.pending _ (List.mem_of_getElem? hi)
    rw [msgHandler_notification hdata role pauses h.inbound] at hs'
    cases hs'
    exact ⟨_, hi, rfl⟩

theorem inv_step (hjson : RoundTrips unmarshal) (hprovider : Provider unmarshal notify)
    {sender receiver : CallHandler F PC DC} {conn : ℕ} {e : Event F PC DC role} (h : Inv s)
    (hs' : (relay lib unmarshal notify role sender receiver conn).step s e = some s') :
    Inv s' := by
  cases e with
  | send payload =>
    obtain ⟨sender', text, heq, hconn, seq, localID, rfl⟩ := send_eq h payload
    obtain rfl := Option.some.inj hs'
    rw [heq]
    refine { h with conn := hconn, wire := ?_ }
    intro w hw
    rcases List.mem_append.mp hw with hold | hnew
    · exact h.wire w hold
    · obtain rfl := List.mem_singleton.mp hnew
      exact ⟨seq, localID, rfl⟩
  | read =>
    obtain ⟨w, wire, receiver', data, hwire, rfl, hset, hdata⟩ := read_eq hjson hprovider h hs'
    refine { h with inbound := hset, wire := ?_, pending := ?_ }
    · intro w' hw'
      exact h.wire w' (hwire ▸ List.mem_cons_of_mem w hw')
    · intro g hg
      rcases List.mem_append.mp hg with hold | hnew
      · exact h.pending g hold
      · obtain rfl := List.mem_singleton.mp hnew
        exact hdata
  | handle i pauses =>
    obtain ⟨g, hi, rfl⟩ := handle_eq h hs'
    exact { h with pending := fun g' hg' => h.pending g' (List.mem_of_mem_eraseIdx hg') }
  | other sender' receiver' =>
    obtain ⟨⟨hconn, hset⟩, hs'⟩ := Option.ite_none_right_eq_some.mp hs'
    cases hs'
    exact { h with conn := hconn ▸ h.conn, inbound := hset.trans h.inbound }

/-! ### Conservation and order -/

/-- A step sends a payload, hands one of those on their way to `dcInbound`, or leaves them alone. -/
theorem payloads_step (hjson : RoundTrips unmarshal) (hprovider : Provider unmarshal notify)
    {sender receiver : CallHandler F PC DC} {conn : ℕ} {e : Event F PC DC role} (h : Inv s)
    (hs' : (relay lib unmarshal notify role sender receiver conn).step s e = some s') :
    (∃ payload, s'.inbound = s.inbound ∧ s'.waiting = s.waiting ++ [payload] ∧
        s'.sent = s.sent ++ [payload]) ∨
      (∃ i pauses payload, e = .handle i pauses ∧ s.waiting[i]? = some payload ∧
        s'.inbound = s.inbound ++ [payload] ∧ s'.waiting = s.waiting.eraseIdx i ∧
        s'.sent = s.sent) ∨
      (s'.inbound = s.inbound ∧ s'.waiting = s.waiting ∧ s'.sent = s.sent) := by
  cases e with
  | send payload =>
    obtain ⟨sender', text, heq, -⟩ := send_eq h payload
    obtain rfl := Option.some.inj hs'
    rw [heq]
    exact .inl ⟨payload, rfl, by simp [waiting], rfl⟩
  | read =>
    obtain ⟨w, wire, receiver', data, hwire, rfl, -⟩ := read_eq hjson hprovider h hs'
    exact .inr (.inr ⟨rfl, by simp [waiting, hwire], rfl⟩)
  | handle i pauses =>
    obtain ⟨g, hi, rfl⟩ := handle_eq h hs'
    have hlt : i < (s.pending.map Prod.fst).length := by
      rw [List.length_map]
      exact (List.getElem?_eq_some_iff.mp hi).1
    refine .inr (.inl ⟨i, pauses, g.1, rfl, ?_, rfl, ?_, rfl⟩)
    · rw [waiting, List.getElem?_append_left hlt, List.getElem?_map, hi]
      rfl
    · rw [waiting, waiting, List.eraseIdx_append_of_lt_length hlt, List.eraseIdx_map]
  | other sender' receiver' =>
    obtain ⟨-, hs'⟩ := Option.ite_none_right_eq_some.mp hs'
    cases hs'
    exact .inr (.inr ⟨rfl, rfl, rfl⟩)

/-- The goroutine that runs is the one that was started first. -/
def InOrder (_ : Relay F PC DC) : Event F PC DC role → Prop
  | .handle i _ => i = 0
  | _ => True

/-- **Whatever the scheduling, payloads are neither lost nor doubled nor changed, and if the
goroutines run in the order in which they were started, they keep their order.** -/
theorem relayed (hjson : RoundTrips unmarshal) (hprovider : Provider unmarshal notify)
    {sender receiver : CallHandler F PC DC} {conn : ℕ} {es : List (Event F PC DC role)}
    (hrun : (relay lib unmarshal notify role sender receiver conn).run
      (relay lib unmarshal notify role sender receiver conn).init es = some s) :
    s.panicked = false ∧ (s.inbound ++ s.waiting).Perm s.sent ∧
      ((relay lib unmarshal notify role sender receiver conn).Along InOrder
        (relay lib unmarshal notify role sender receiver conn).init es →
          s.inbound ++ s.waiting = s.sent) := by
  have hinit : Inv (relay lib unmarshal notify role sender receiver conn).init :=
    ⟨nofun, rfl, rfl, nofun, nofun⟩
  have hperm : Inv s ∧ (s.inbound ++ s.waiting).Perm s.sent := by
    refine EventSystem.run_invariant (P := fun _ _ => True)
      (I := fun s => Inv s ∧ (s.inbound ++ s.waiting).Perm s.sent) ?_ ⟨hinit, .nil⟩
        (EventSystem.along_true _ es) hrun
    rintro s e s' ⟨h, hperm⟩ - hs'
    refine ⟨inv_step hjson hprovider h hs', ?_⟩
    rcases payloads_step hjson hprovider h hs' with ⟨payload, hin, hwaiting, hsent⟩ |
      ⟨i, pauses, payload, -, hi, hin, hwaiting, hsent⟩ | ⟨hin, hwaiting, hsent⟩
    · rw [hin, hwaiting, hsent, ← List.append_assoc]
      exact hperm.append_right [payload]
    · obtain ⟨hlt, rfl⟩ := List.getElem?_eq_some_iff.mp hi
      rw [hin, hwaiting, hsent, List.append_assoc]
      exact ((List.getElem_cons_eraseIdx_perm hlt).append_left s.inbound).trans hperm
    · rw [hin, hwaiting, hsent]
      exact hperm
  refine ⟨hperm.1.panicked, hperm.2, fun horder => ?_⟩
  have heq : Inv s ∧ s.inbound ++ s.waiting = s.sent := by
    refine EventSystem.run_invariant (P := InOrder)
      (I := fun s => Inv s ∧ s.inbound ++ s.waiting = s.sent) ?_ ⟨hinit, rfl⟩ horder hrun
    rintro s e s' ⟨h, heq⟩ hfirst hs'
    refine ⟨inv_step hjson hprovider h hs', ?_⟩
    rcases payloads_step hjson hprovider h hs' with ⟨payload, hin, hwaiting, hsent⟩ |
      ⟨i, pauses, payload, rfl, hi, hin, hwaiting, hsent⟩ | ⟨hin, hwaiting, hsent⟩
    · rw [hin, hwaiting, hsent, ← heq, List.append_assoc]
    · obtain rfl : i = 0 := hfirst
      obtain ⟨rest, hrest⟩ : ∃ rest, s.waiting = payload :: rest := by
        cases hw : s.waiting with
        | nil =>
          rw [hw] at hi
          cases hi
        | cons first rest =>
          rw [hw] at hi
          cases hi
          exact ⟨rest, rfl⟩
      rw [hin, hwaiting, hsent, hrest, ← heq, hrest, List.append_assoc]
      rfl
    · rw [hin, hwaiting, hsent, heq]
  exact heq.2

/-! ### A provider -/

mutual

/-- What a JSON value is decoded to, with whole numbers for the `float64`s. -/
def dynamic : Json → Dynamic ℤ
  | .null => .nil
  | .bool b => .bool b
  | .num n => .num n
  | .str s => .str s
  | .arr items => .slice (dynamicItems items)
  | .obj members => .map (dynamicMembers members)

def dynamicItems : List Json → List (Dynamic ℤ)
  | [] => []
  | v :: items => dynamic v :: dynamicItems items

def dynamicMembers : List (Bytes × Json) → List (Bytes × Dynamic ℤ)
  | [] => []
  | (name, v) :: members => (name, dynamic v) :: dynamicMembers members

end

/-- `json.Unmarshal` of a compact text. -/
def unmarshalText (text : Bytes) : Option (GoMap ℤ) :=
  match JsonText.read text with
  | some (.obj members) => some (dynamicMembers members)
  | some .null => some []
  | _ => none

/-- A notification with nothing but the `data` of the command. -/
def passOn (_ : ℕ) (command : Bytes) : Bytes :=
  match JsonText.read command with
  | some (.obj members) => JsonText.write (.obj [
      (literal "type", .str (literal "notification")),
      (literal "data", (members.lookup (literal "data")).getD .null)])
  | _ => []

/-- The notification of a payload. -/
theorem passOn_injectCommand (n : ℕ) (seq localID : Int64) (payload : Bytes) :
    passOn n (injectCommand seq localID payload) = JsonText.write (.obj [
      (literal "type", .str (literal "notification")),
      (literal "data", .obj [(literal "candidate",
        .obj [(literal "candidate", .str (Base64.encode stdEncoding payload))])])]) := by
  have hother : ∀ name ∈ [literal "command", literal "sequence", literal "participantId"],
      (literal "data" == name) = false := by decide +kernel
  simp only [List.forall_mem_cons] at hother
  rw [passOn, read_injectCommand]
  dsimp only [commandJson]
  simp only [List.lookup_cons, hother.1, hother.2.1, hother.2.2.1, beq_self_eq_true, Option.getD_some]

/-- Its text. -/
theorem write_notification (payload : Bytes) :
    JsonText.write (.obj [
      (literal "type", .str (literal "notification")),
      (literal "data", .obj [(literal "candidate",
        .obj [(literal "candidate", .str (Base64.encode stdEncoding payload))])])]) =
    literal "\x7b\"type\":\"notification\",\"data\":\x7b\"candidate\":\x7b\"candidate\":\"" ++
      Base64.encode stdEncoding payload ++ literal "\"\x7d\x7d\x7d" := by
  have htype :
      literal "\x7b\"type\":\"notification\",\"data\":\x7b\"candidate\":\x7b\"candidate\":\"" =
      0x7B :: 0x22 :: (JsonText.writeString (literal "type") ++ 0x3A :: 0x22 ::
        (JsonText.writeString (literal "notification") ++ 0x2C :: 0x22 ::
          (JsonText.writeString (literal "data") ++ 0x3A :: 0x7B :: 0x22 ::
            (JsonText.writeString (literal "candidate") ++ 0x3A :: 0x7B :: 0x22 ::
              (JsonText.writeString (literal "candidate") ++ [0x3A, 0x22]))))) := by decide +kernel
  have hend : literal "\"\x7d\x7d\x7d" = [0x22, 0x7D, 0x7D, 0x7D] := by decide +kernel
  simp only [JsonText.write, JsonText.writeMember, JsonText.writeMembers, writeString_encode, htype,
    hend, List.append_assoc, List.cons_append, List.nil_append]

theorem roundTrips_unmarshalText : RoundTrips unmarshalText := by
  intro seq localID payload
  refine ⟨_, by rw [unmarshalText, read_injectCommand]; rfl, ?_⟩
  have hother : ∀ name ∈ [literal "command", literal "sequence", literal "participantId",
      literal "participantType"], name ≠ literal "data" := by decide +kernel
  simp only [List.forall_mem_cons] at hother
  obtain ⟨hcommand, hsequence, hid, htype, -⟩ := hother
  simp only [dynamicMembers, dynamic, GoMap.lookup, List.foldl_cons, List.foldl_nil]
  rw [if_neg htype, if_true]

theorem provider_passOn : Provider unmarshalText passOn := by
  intro n seq localID payload
  have htext := write_notification payload
  rw [passOn_injectCommand]
  constructor
  · intro m hm
    obtain ⟨m₀, hm₀, hdata⟩ := roundTrips_unmarshalText seq localID payload
    obtain rfl := Option.some.inj (hm₀.symm.trans hm)
    have hother : ∀ name ∈ [literal "conversation", literal "conversationParams"],
        literal "type" ≠ name ∧ literal "data" ≠ name := by decide +kernel
    have hdata' : literal "data" ≠ literal "type" := by decide +kernel
    refine ⟨[(literal "type", .str (literal "notification")), (literal "data",
      .map [(literal "candidate",
        .map [(literal "candidate", .str (Base64.encode stdEncoding payload))])])], ?_, ?_, ?_,
      ?_, ?_⟩
    · simp only [unmarshalText, JsonText.read_write, dynamicMembers, dynamic]
    · rw [hdata]
      simp only [GoMap.lookup, List.foldl_cons, List.foldl_nil, if_true]
    · simp only [GoMap.lookup, List.foldl_cons, List.foldl_nil, if_true]
      rw [if_neg hdata']
    · intro v
      simp only [GoMap.lookup, List.foldl_cons, List.foldl_nil]
      rw [if_neg (hother _ (by decide +kernel)).1, if_neg (hother _ (by decide +kernel)).2]
      nofun
    · intro v
      simp only [GoMap.lookup, List.foldl_cons, List.foldl_nil]
      rw [if_neg (hother _ (by decide +kernel)).1, if_neg (hother _ (by decide +kernel)).2]
      nofun
  · rw [htext, contains_iff, List.append_assoc]
    exact (show literal "notification" <:+: _ by decide +kernel).trans
      (List.prefix_append _ _).isInfix
  · intro haccepted
    rw [htext, contains_iff] at haccepted
    have hhyphen : (0x2D : UInt8) ∈ literal "accepted-call" := by decide +kernel
    rcases List.mem_append.mp (haccepted.subset hhyphen) with h | h
    · rcases List.mem_append.mp h with h | h
      · exact absurd h (by decide +kernel)
      · exact absurd (mem_encode_std h) (by decide +kernel)
    · exact absurd h (by decide +kernel)

/-- The goroutines of two payloads run in order. -/
def ordered : List (Event ℤ Unit Unit .receiver) :=
  [.send [1], .send [2], .read, .read, .handle 0 CallHandler.quiet, .handle 0 CallHandler.quiet]

theorem relayed_ordered :
    ∃ s, (relay CallHandler.acting unmarshalText passOn .receiver {} {} 0).run
        (relay CallHandler.acting unmarshalText passOn .receiver {} {} 0).init ordered = some s ∧
      s.panicked = false ∧ (s.inbound ++ s.waiting).Perm s.sent ∧
        s.inbound ++ s.waiting = s.sent := by
  have hsome : ((relay CallHandler.acting unmarshalText passOn .receiver {} {} 0).run
      (relay CallHandler.acting unmarshalText passOn .receiver {} {} 0).init ordered).isSome := by
    decide +kernel
  obtain ⟨s, hs⟩ := Option.isSome_iff_exists.mp hsome
  obtain ⟨hpanicked, hperm, horder⟩ := relayed roundTrips_unmarshalText provider_passOn hs
  exact ⟨s, hs, hpanicked, hperm, horder <|
    EventSystem.along_of_forall (by simp [ordered, InOrder]) _⟩

/-- The second payload overtakes the first. -/
theorem not_relayed_inOrder :
    ((relay CallHandler.acting unmarshalText passOn .receiver {} {} 0).run
        (relay CallHandler.acting unmarshalText passOn .receiver {} {} 0).init
        [.send [1], .send [2], .read, .read, .handle 1 CallHandler.quiet,
          .handle 0 CallHandler.quiet]).map (fun s => (s.waiting, s.inbound, s.sent)) =
      some ([], [[2], [1]], [[1], [2]]) := by
  decide +kernel

end Relay

end OpenFlux.Transport.Oneme
