import OpenFlux.Go.Base64
import OpenFlux.Go.Json
import OpenFlux.Go.Url
import OpenFlux.Transport.Cupsonline

/-!
# The rooms of a Cups.online client (`transport/cupsonline/cupsonline.go`)

What `NewCupsonlineTransport` makes of the URL that it is given, and the rooms that `Start` joins.
The fields that do not come from the URL are left out.
-/

namespace OpenFlux.Transport.Cupsonline

/-- `json.Unmarshal` into a `[]string`. -/
def unmarshalStrings : Json → Option (List Bytes)
  | .null => some []
  | .arr items => items.mapM fun
    | .str s => some s
    | .null => some []
    | _ => none
  | _ => none

/-- What `encoding/json` and `net/url` do that the model leaves open: the value of a text, and which
authorities of URLs are well formed. -/
structure Libs where
  readJson : Bytes → Option Json
  authorityOk : Bytes → Bool

variable (L : Libs)

/-- `unpackRooms`. -/
def unpackRooms (s : Bytes) : Option (List Bytes) :=
  (Base64.decode rawURLEncoding s).bind fun raw => (L.readJson raw).bind unmarshalStrings

/-- The ids that `NewCupsonlineTransport` finds in the query. -/
def queryRooms (rawURL : Bytes) : List Bytes :=
  match URL.parse L.authorityOk rawURL with
  | none => []
  | some rawQuery =>
    let q := URL.parseQuery rawQuery
    let packed := URL.get q (literal "rooms")
    let single := URL.get q (literal "room")
    if packed ≠ [] then (unpackRooms L packed).getD []
    else if single ≠ [] then [single]
    else []

/-- The ids that it finds in the URL. -/
def urlRooms (rawURL : Bytes) : List Bytes :=
  if rawURL = [] then []
  else if queryRooms L rawURL = [] then (unpackRooms L rawURL).getD []
  else queryRooms L rawURL

def baseRoomURL : Bytes := literal "https://interview.cups.online/live-coding/"

/-- The fields of `CupsonlineTransport` that say which rooms there are. -/
structure Client where
  isClient : Bool
  baseURL : Bytes := []
  urls : List Bytes := []
  clientErr : Option String := none
  deriving DecidableEq

/-- `NewCupsonlineTransport`. -/
def newCupsonlineTransport (rawURL : Bytes) (isClient : Bool) : Client :=
  if isClient then
    let ids := urlRooms L rawURL
    if ids = [] then
      { isClient, clientErr := some "client mode: --url must contain base64 room list" }
    else { isClient, urls := ids.map fun id => baseRoomURL ++ literal "?room=" ++ id }
  else { isClient, baseURL := baseRoomURL }

/-- The loop of `Start` over the rooms to join.  `authorize` asks the service, which is in a state
of its own; a room that it has an error for is skipped. -/
def joinRooms {α ω : Type} (authorize : Bytes → ω → Except String α × ω) :
    List Bytes → ω → List α × ω
  | [], w => ([], w)
  | u :: urls, w =>
    let (answer, w) := authorize u w
    let (auths, w) := joinRooms authorize urls w
    match answer with
    | .error _ => (auths, w)
    | .ok a => (a :: auths, w)

/-- `Start` of a client, up to the rooms that it has joined. -/
def Client.start {α ω : Type} (t : Client) (authorize : Bytes → ω → Except String α × ω) (w : ω) :
    Except String (List α) × ω :=
  match t.clientErr with
  | some err => (.error err, w)
  | none =>
    let (auths, w) := joinRooms authorize t.urls w
    (if auths.isEmpty then .error "no rooms joined" else .ok auths, w)

end OpenFlux.Transport.Cupsonline
