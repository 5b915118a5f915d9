import OpenFlux.Transport.Oneme.Client

/-!
# Which failures a start of the MAX transport survives

`runTransport_isSome_iff` says exactly with which outcomes of the dial, the login and the rounds of
the reconnect loop there is no panic: a failed dial leaves the client without a connection, a failed
`invoke` in the loop leaves it without a response, and the contacts of the login have to be of the
form that `getUserMap` expects.
-/

namespace OpenFlux.Transport.Oneme

variable {F PC DC : Type}

/-! ### What is expected -/

/-- A contact with a number as `id`, whose names are objects. -/
def IsContact (contact : Dynamic F) : Prop :=
  ∃ cm : GoMap F, contact = .map cm ∧ (∃ x, cm.lookup (literal "id") = .num x) ∧
    ∀ names, cm.lookup (literal "names") = .slice names →
      ∀ name ∈ names, ∃ n : GoMap F, name = .map n

/-- A payload that is an error, that cannot be decoded, or whose contacts are contacts. -/
def LoginFits (d : Decoder F) (payload : Bytes) : Prop :=
  (∃ entry ∈ (d.unmarshal payload).1, entry.1 = literal "error") ∨
    (d.unmarshal payload).2 = false ∨
    ∀ contacts, (d.unmarshal payload).1.lookup (literal "contacts") = .slice contacts →
      ∀ contact ∈ contacts, IsContact contact

/-- Outcomes that are dealt with: the client is connected, a response to the login fits, and for a
caller every round of the loop gets a response. -/
structure Survivable (d : Decoder F) (role : Role) (dialled : Bool) (login : Invoked)
    (attempts : List (Attempt F PC DC)) : Prop where
  dialled : dialled = true
  login : ∀ payload, login = .response payload → LoginFits d payload
  attempts : role = .caller → ∀ a ∈ attempts, ∃ payload, a.invoked = .response payload

namespace MaxClient

variable (d : Decoder F)

/-! ### Contacts -/

theorem addName_isSome_iff (u : UserInfo) (name : Dynamic F) :
    (addName u name).isSome ↔ ∃ n : GoMap F, name = .map n := by
  rw [addName]
  cases hn : name.asMap with
  | none => exact iff_of_false nofun fun ⟨n, h⟩ => Dynamic.asMap_eq_none.mp hn n h
  | some n =>
    refine iff_of_true ?_ ⟨n, Dynamic.asMap_eq_some.mp hn⟩
    rw [Option.bind_eq_bind, Option.bind_some]
    split <;> rfl

theorem addContact_isSome_iff (userMap : List (Int64 × UserInfo)) (contact : Dynamic F) :
    (addContact d userMap contact).isSome ↔ IsContact contact := by
  rw [addContact]
  cases hcm : contact.asMap with
  | none => exact iff_of_false nofun fun ⟨cm, h, _⟩ => Dynamic.asMap_eq_none.mp hcm cm h
  | some cm =>
    obtain rfl := Dynamic.asMap_eq_some.mp hcm
    rw [Option.bind_eq_bind, Option.bind_some, Option.bind_eq_bind]
    cases hid : (cm.lookup (literal "id")).asNumber with
    | none =>
      refine iff_of_false nofun ?_
      rintro ⟨cm', heq, ⟨x, hx⟩, -⟩
      cases heq
      rw [hx] at hid
      cases hid
    | some x =>
      have hnames := foldlM_isSome_iff addName_isSome_iff
        ((cm.lookup (literal "names")).asSlice.getD [])
        ⟨d.toInt64 x, [], [], [], ((cm.lookup (literal "phone")).asNumber.map d.toInt64).getD 0⟩
      rw [← Dynamic.forall_slice_iff] at hnames
      rw [Option.map_some, Option.bind_some]
      refine Iff.trans ?_ (hnames.trans ⟨fun hall => ⟨cm, rfl, ⟨x, ?_⟩, hall⟩, ?_⟩)
      · dsimp only
        cases List.foldlM addName _ ((cm.lookup (literal "names")).asSlice.getD []) <;> rfl
      · exact Dynamic.asNumber_eq_some.mp hid
      · rintro ⟨cm', heq, -, hall⟩
        cases heq
        exact hall

theorem getUserMap_isSome_iff (payload : Bytes) : (getUserMap d payload).isSome ↔
    ((d.unmarshal payload).2 = false ∨
      ∀ contacts, (d.unmarshal payload).1.lookup (literal "contacts") = .slice contacts →
        ∀ contact ∈ contacts, IsContact contact) := by
  rw [getUserMap]
  rcases d.unmarshal payload with ⟨m, ok⟩
  cases ok with
  | false => exact iff_of_true rfl (.inl rfl)
  | true =>
    rw [Dynamic.forall_slice_iff]
    exact (foldlM_isSome_iff (addContact_isSome_iff d) _ _).trans
      ⟨.inr, fun h => h.resolve_left Bool.noConfusion⟩

/-! ### Login -/

/-- With a connection, every `invoke` returns. -/
theorem invoke_of_conn {c : MaxClient} (hconn : c.conn = true) (invoked : Invoked) :
    c.invoke invoked = some (match invoked with
      | .response payload => .ok payload
      | .writeError err => .error err
      | .timeout => .error (literal "timeout")) := by
  unfold invoke
  rw [if_pos hconn]
  cases invoked <;> rfl

theorem invoke_of_nil {c : MaxClient} (hconn : c.conn = false) (invoked : Invoked) :
    c.invoke invoked = none := by
  unfold invoke
  rw [if_neg (by rw [hconn]; exact Bool.false_ne_true)]

theorem loginByToken_isSome_iff (c : MaxClient) (hello login : Invoked) :
    (c.loginByToken d hello login).isSome ↔
      c.conn = true ∧ ∀ payload, login = .response payload → LoginFits d payload := by
  rw [loginByToken]
  cases hconn : c.conn with
  | false =>
    rw [invoke_of_nil hconn]
    exact iff_of_false nofun nofun
  | true =>
    rw [invoke_of_conn hconn, invoke_of_conn hconn, Option.bind_eq_bind, Option.bind_some,
      Option.bind_eq_bind, Option.bind_some]
    cases login with
    | writeError err => exact iff_of_true rfl ⟨rfl, nofun⟩
    | timeout => exact iff_of_true rfl ⟨rfl, nofun⟩
    | response payload =>
      have hfits : (true = true ∧ ∀ p, Invoked.response payload = .response p → LoginFits d p) ↔
          LoginFits d payload := by
        simp
      rw [hfits, LoginFits]
      dsimp only
      by_cases herror : ∃ entry ∈ (d.unmarshal payload).1, entry.1 = literal "error"
      · rw [if_pos (by simpa using herror)]
        exact iff_of_true rfl (.inl herror)
      · rw [if_neg (by simpa using herror)]
        refine Iff.trans ?_ ((getUserMap_isSome_iff d payload).trans
          ⟨.inr, fun h => h.resolve_left herror⟩)
        cases getUserMap d payload <;> rfl

theorem conn_of_loginByToken {c c' : MaxClient} {hello login : Invoked}
    (h : c.loginByToken d hello login = some (.ok c')) : c'.conn = c.conn := by
  rw [loginByToken] at h
  obtain ⟨_, -, h⟩ := Option.bind_eq_some_iff.mp h
  obtain ⟨result, -, h⟩ := Option.bind_eq_some_iff.mp h
  cases result with
  | error err => cases h
  | ok payload =>
    dsimp only at h
    split at h
    · cases h
    · obtain ⟨_, -, h⟩ := Option.bind_eq_some_iff.mp h
      cases h
      rfl

end MaxClient

/-! ### Start -/

theorem start_isSome_iff (d : Decoder F) (dialled : Bool) (hello login : Invoked) :
    (start d dialled hello login : Option (MaxClient × CallHandler F PC DC)).isSome ↔
      dialled = true ∧ ∀ payload, login = .response payload → LoginFits d payload := by
  refine Iff.trans ?_ (MaxClient.loginByToken_isSome_iff d { conn := dialled } hello login)
  rw [start]
  cases MaxClient.loginByToken d { conn := dialled } hello login with
  | none => rfl
  | some result => cases result <;> rfl

/-- With or without a login, the client has the connection that was dialled. -/
theorem conn_of_start {d : Decoder F} {dialled : Bool} {hello login : Invoked} {c : MaxClient}
    {h : CallHandler F PC DC} (hstart : start d dialled hello login = some (c, h)) :
    c.conn = dialled := by
  rw [start] at hstart
  obtain ⟨result, hresult, hstart⟩ := Option.bind_eq_some_iff.mp hstart
  cases result with
  | error err =>
    cases hstart
    rfl
  | ok c' =>
    cases hstart
    exact MaxClient.conn_of_loginByToken d hresult

theorem reconnect_isSome_iff (d : Decoder F) {c : MaxClient} (hconn : c.conn = true)
    (h : CallHandler F PC DC) (a : Attempt F PC DC) :
    (reconnect d c h a).isSome ↔ ∃ payload, a.invoked = .response payload := by
  rw [reconnect, MaxClient.invoke_of_conn hconn, Option.bind_eq_bind, Option.bind_some]
  cases a.invoked with
  | writeError err => exact iff_of_false nofun nofun
  | timeout => exact iff_of_false nofun nofun
  | response payload =>
    refine iff_of_true ?_ ⟨payload, rfl⟩
    show (Option.bind (some payload) _).isSome
    rw [Option.bind_some]
    dsimp only
    split <;> rfl

/-- **A start and the reconnect loop after it panic exactly where a failure is not dealt with.** -/
theorem runTransport_isSome_iff (d : Decoder F) (role : Role) (dialled : Bool)
    (hello login : Invoked) (attempts : List (Attempt F PC DC)) :
    (runTransport d role dialled hello login attempts).isSome ↔
      Survivable d role dialled login attempts := by
  have hsome := @start_isSome_iff F PC DC d dialled hello login
  rw [runTransport]
  cases hstart : (start d dialled hello login : Option (MaxClient × CallHandler F PC DC)) with
  | none =>
    rw [hstart] at hsome
    exact iff_of_false nofun fun h => absurd (hsome.mpr ⟨h.dialled, h.login⟩) nofun
  | some r =>
    obtain ⟨c, h⟩ := r
    rw [hstart] at hsome
    obtain ⟨hdialled, hfits⟩ := hsome.mp rfl
    have hconn : c.conn = true := (conn_of_start hstart).trans hdialled
    rw [Option.bind_eq_bind, Option.bind_some]
    cases role with
    | receiver => exact iff_of_true rfl ⟨hdialled, hfits, nofun⟩
    | caller =>
      exact (foldlM_isSome_iff (reconnect_isSome_iff d hconn) attempts h).trans
        ⟨fun hall => ⟨hdialled, hfits, fun _ => hall⟩, fun hall => hall.attempts rfl⟩

/-- The decoder of empty objects. -/
def emptyObjects : Decoder ℤ where
  unmarshal _ := ([], true)
  endpoint _ := []
  toInt64 := Int64.ofInt
  text _ := []

/-- The client cannot be dialled, or the call of the reconnect loop times out. -/
theorem runTransport_failures :
    (runTransport emptyObjects .caller false .timeout .timeout [] :
        Option (CallHandler ℤ Unit Unit)) = none ∧
      (runTransport emptyObjects .caller true (.response (literal "\x7b\x7d"))
        (.response (literal "\x7b\x7d")) [⟨.timeout, fun _ => none, id⟩] :
          Option (CallHandler ℤ Unit Unit)) = none :=
  ⟨rfl, rfl⟩

end OpenFlux.Transport.Oneme
