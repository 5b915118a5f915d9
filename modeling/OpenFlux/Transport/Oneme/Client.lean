import OpenFlux.Transport.Oneme.CallHandler

/-!
# Starting the MAX transport (`transport/oneme`)

`OneMeTransport.Start` with `Connect`, `LoginByToken` and `getUserMap` (`max_wclient.go`), and the
caller's reconnect loop (`max_call.go`).  What the environment decides is given: whether the dial
succeeds, how each `invoke` ends, and for the websocket of a call whether and as which connection it
can be dialled.

A function that may panic is one to `Option`, `none` being a panic.  The payload of a response is
its text; what `json.Unmarshal` makes of it is a parameter (`Decoder`).
-/

namespace OpenFlux.Transport.Oneme

variable {F PC DC : Type}

/-- How an `invoke` ends: a response with its payload, a write error, or a time-out. -/
inductive Invoked
  | response (payload : Bytes)
  | writeError (err : Bytes)
  | timeout

/-- `json.Unmarshal`, the conversion of a `float64` and the verb `%v`. -/
structure Decoder (F : Type) where
  -- what is left in a `map[string]interface{}`, and whether there was no error
  unmarshal : Bytes → GoMap F × Bool
  -- the `Endpoint` that is left in an `InternalCallerParams`
  endpoint : Bytes → Bytes
  toInt64 : F → Int64
  text : Dynamic F → Bytes

/-- `UserInfo`. -/
structure UserInfo where
  id : Int64
  firstName : Bytes := []
  lastName : Bytes := []
  fullName : Bytes := []
  phone : Int64 := 0

/-- `MaxClient`, by whether its connection is set, and whether it is logged in. -/
structure MaxClient where
  conn : Bool := false
  loggedIn : Bool := false

namespace MaxClient

/-- `invoke`, which writes on `c.conn`: the payload of the response, or an error. -/
def invoke (c : MaxClient) (invoked : Invoked) : Option (Except Bytes Bytes) :=
  if c.conn then
    match invoked with
    | .response payload => some (.ok payload)
    | .writeError err => some (.error err)
    | .timeout => some (.error (literal "timeout"))
  else none

/-! ### Contacts -/

/-- A name of a contact. -/
def addName (u : UserInfo) (name : Dynamic F) : Option UserInfo := do
  let n ← name.asMap
  if (n.lookup (literal "type")).asString = some (literal "ONEME") then
    return { u with
      firstName := (n.lookup (literal "firstName")).asString.getD u.firstName
      lastName := (n.lookup (literal "lastName")).asString.getD u.lastName
      fullName := (n.lookup (literal "name")).asString.getD u.fullName }
  else return u

/-- A contact is added to the map, the last one for an ID counting. -/
def addContact (d : Decoder F) (userMap : List (Int64 × UserInfo)) (contact : Dynamic F) :
    Option (List (Int64 × UserInfo)) := do
  let cm ← contact.asMap
  let id ← (cm.lookup (literal "id")).asNumber.map d.toInt64
  let u : UserInfo := { id, phone := ((cm.lookup (literal "phone")).asNumber.map d.toInt64).getD 0 }
  let u ← ((cm.lookup (literal "names")).asSlice.getD []).foldlM addName u
  return userMap ++ [(id, u)]

def getUserMap (d : Decoder F) (payload : Bytes) : Option (List (Int64 × UserInfo)) :=
  let (m, ok) := d.unmarshal payload
  if ok then ((m.lookup (literal "contacts")).asSlice.getD []).foldlM (addContact d) []
  else some []

/-! ### Login -/

/-- `LoginByToken`, by how its two calls of `invoke` end.  The contacts are printed. -/
def loginByToken (d : Decoder F) (c : MaxClient) (hello login : Invoked) :
    Option (Except Bytes MaxClient) := do
  -- the error of the first call is ignored
  let _ ← c.invoke hello
  match ← c.invoke login with
  | .error err => return .error err
  | .ok payload =>
    let (m, _) := d.unmarshal payload
    if m.any (·.1 = literal "error") then
      return .error (literal "login failed: " ++ d.text (m.lookup (literal "error")))
    else
      let _users ← getUserMap d payload
      return .ok { c with loggedIn := true }

end MaxClient

/-! ### Start -/

/-- `OneMeTransport.Start`: the client and the handler that it sets up.  The errors of `Connect` and
of `LoginByToken` are ignored. -/
def start (d : Decoder F) (dialled : Bool) (hello login : Invoked) :
    Option (MaxClient × CallHandler F PC DC) := do
  let c : MaxClient := { conn := dialled }
  match ← c.loginByToken d hello login with
  | .ok c => return (c, { dcInbound := true })
  | .error _ => return (c, { dcInbound := true })

/-- What the environment does for a round of the reconnect loop. -/
structure Attempt (F PC DC : Type) where
  invoked : Invoked
  -- the connection that is dialled for an endpoint
  dial : Bytes → Option ℕ
  -- what happens to the handler up to the next round
  others : CallHandler F PC DC → CallHandler F PC DC

/-- A round of the reconnect loop of `startOutgoingCall`.  After a dial error the next one follows.
-/
def reconnect (d : Decoder F) (c : MaxClient) (h : CallHandler F PC DC) (a : Attempt F PC DC) :
    Option (CallHandler F PC DC) := do
  let h : CallHandler F PC DC := { h with
    callAccepted := false
    acceptSent := false
    hasRemoteDesc := false
    pendingCandidates := []
    seq := 1
    pc := none
    dc := none }
  -- the error is ignored, and the response is nil then
  let payload ← (← c.invoke a.invoked).toOption
  let (m, _) := d.unmarshal payload
  let paramsStr := (m.lookup (literal "internalCallerParams")).asString.getD []
  let endpoint := d.endpoint paramsStr ++ literal ("&platform=WEB&appVersion=1.1&version=5" ++
    "&device=browser&capabilities=2A03F&clientType=ONE_ME&tgt=start")
  match a.dial endpoint with
  | none => return a.others h
  | some conn => return a.others { h with conn := some conn }

/-- `Start`, and for a caller the reconnect loop for some rounds. -/
def runTransport (d : Decoder F) (role : Role) (dialled : Bool) (hello login : Invoked)
    (attempts : List (Attempt F PC DC)) : Option (CallHandler F PC DC) := do
  let (c, h) ← start d dialled hello login
  match role with
  | .caller => attempts.foldlM (reconnect d c) h
  | .receiver => return h

end OpenFlux.Transport.Oneme
