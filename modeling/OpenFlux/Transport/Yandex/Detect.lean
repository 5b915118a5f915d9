import OpenFlux.Go.Dynamic

/-!
# Which Yandex editor a document has (`transport/yandex/detect.go`)

`DetectDocumentTransport`, `fetchDocInfo` (`transport/yandex/yandex.go`) and `authorize`
(`transport/yandex/vyandex.go`) find the client config of a document's page with the same
expression.  They are modelled from there on, as functions of its JSON value: the first two read it
with `json.Unmarshal`, the third with a decoder that is told to `UseNumber`.  `parse` is the
conversion of a number to `float64`, whose error is the one of `json.Unmarshal`.
-/

namespace OpenFlux.Transport.Yandex

variable {F : Type}

def documentTransportLegacy : Bytes := literal "yandex"

def documentTransportModern : Bytes := literal "vyandex"

/-- A result with what its error is wrapped in. -/
def wrapError {α : Type} (text : String) (x : Except Bytes α) : Checked α :=
  match x with
  | .ok a => pure a
  | .error err => throw (literal text ++ err)

/-- `DetectDocumentTransport`. -/
def detectDocumentTransport (parse : JsonNumber → Except Bytes F) (page : Dynamic JsonNumber) :
    Checked Bytes := do
  let config ← wrapError "parse document configuration: " (unmarshalMap parse page)
  let some office := (config.lookup (literal "officeActionData")).asMap
    | throw (literal "document editor is unavailable")
  if (office.lookup (literal "action_url")).asText.isSome ∧
      (office.lookup (literal "access_token")).asText.isSome then
    return documentTransportModern
  if (office.lookup (literal "editor_config")).asMap.isSome ∧
      (office.lookup (literal "balancer_url")).asText.isSome then
    return documentTransportLegacy
  throw (literal "unsupported Yandex document editor format")

/-- `OpenCmd`. -/
structure OpenCmd (F : Type) where
  c : Bytes := literal "open"
  id : Bytes
  userid : Bytes
  format : Dynamic F
  url : Dynamic F
  title : Dynamic F
  lcid : ℤ := 25

structure YandexDocsInfo (F : Type) where
  cookieStr : Bytes
  token : Bytes
  docID : Bytes
  origin : Bytes
  host : Bytes
  wsURL : Bytes
  permissions : GoMap F
  openCmd : OpenCmd F

/-- `fetchDocInfo`, with the cookies of the response. -/
def fetchDocInfo (parse : JsonNumber → Except Bytes F) (cookies : List (Bytes × Bytes))
    (userID : Bytes) (page : Dynamic JsonNumber) : Checked (YandexDocsInfo F) := do
  let config ← wrapError "client-config is not valid JSON: " (unmarshalMap parse page)
  let some officeAction := (config.lookup (literal "officeActionData")).asMap
    | throw (literal "officeActionData missing - will reconnect")
  let some editorConfigRaw := (officeAction.lookup (literal "editor_config")).asMap
    | throw (literal "editor_config nil - will reconnect")
  let some balancerURL := (officeAction.lookup (literal "balancer_url")).asText
    | throw (literal "officeActionData.balancer_url missing - will reconnect")
  let host := trimPrefix balancerURL (literal "https://")
  let some document := (editorConfigRaw.lookup (literal "document")).asMap
    | throw (literal "editor_config.document missing - will reconnect")
  let some token := (editorConfigRaw.lookup (literal "token")).asText
    | throw (literal "editor_config.token missing - will reconnect")
  let some docKey := (document.lookup (literal "key")).asText
    | throw (literal "editor_config.document.key missing - will reconnect")
  return {
    cookieStr := (literal "; ").intercalate (cookies.map fun c => c.1 ++ literal "=" ++ c.2)
    token
    docID := docKey
    origin := balancerURL
    host
    wsURL := literal "wss://" ++ host ++ literal "/2024.1.1-375/doc/" ++ docKey ++
      literal "/c/?EIO=4&transport=websocket"
    permissions := (document.lookup (literal "permissions")).asMap.getD []
    openCmd := {
      id := docKey
      userid := userID
      format := document.lookup (literal "fileType")
      url := document.lookup (literal "url")
      title := document.lookup (literal "title") } }

/-- `getStr` of a map whose numbers are `json.Number`s. -/
def getStr (m : GoMap JsonNumber) (key : Bytes) : Bytes :=
  match m.lookup key with
  | .str s => s
  | .num n => n.text
  | _ => []

/-- What `authorize` takes from the client config for the request that follows. -/
structure ClientConfig where
  actionURL : Bytes
  accessToken : Bytes
  resourceURL : Bytes
  docID : Bytes
  ttl : Dynamic JsonNumber

/-- `authorize` up to its last check of the client config. -/
def authorize (page : Dynamic JsonNumber) : Checked ClientConfig := do
  let cfg ← wrapError "parse client-config: " page.intoMap
  let editor := (cfg.lookup (literal "editorParams")).asMap.getD []
  let some office := (cfg.lookup (literal "officeActionData")).asMap
    | throw (literal "officeActionData missing (keys: " ++ cfg.showKeys ++ literal ")")
  let actionURL := getStr office (literal "action_url")
  let accessToken := getStr office (literal "access_token")
  if actionURL = [] then
    throw (literal "action_url missing (keys: " ++ office.showKeys ++ literal ")")
  if accessToken = [] then throw (literal "access_token missing")
  return {
    actionURL
    accessToken
    resourceURL := getStr office (literal "resource_url")
    docID := getStr editor (literal "idDoc")
    ttl := office.lookup (literal "access_token_ttl") }

end OpenFlux.Transport.Yandex
