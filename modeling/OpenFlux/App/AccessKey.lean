import OpenFlux.App.Tunnel

/-!
# Access keys (`ManagedUserProfiles.kt`, `TunnelBundle.kt`)

`build` makes the profiles of a new user out of the server's tunnel, and `parse` makes a tunnel out
of the key that the user is given.
-/

namespace OpenFlux.App

/-- The libraries of the app: `kotlinx.serialization` between values and texts, with a text that
cannot be decoded as `none`, and `Base64.getUrlDecoder`. -/
structure Libs where
  encodeToString : Json → Bytes
  decodeFromString : Bytes → Option Json
  urlDecode : Bytes → Option Bytes

/-- What the app throws. -/
inductive Failure
  | illegalArgument (message : String)
  -- out of a library
  | library
  deriving DecidableEq

/-- A result that a library may not have. -/
def orFailure {α : Type} : Option α → Except Failure α
  | some a => .ok a
  | none => .error .library

/-- `require`. -/
def require (condition : Prop) [Decidable condition] (message : String) : Except Failure Unit :=
  if condition then .ok () else .error (.illegalArgument message)

/-! ### Making profiles -/

structure ManagedProfile where
  name : Bytes
  uri : Bytes
  deriving DecidableEq

namespace ManagedUserProfiles

variable (K : Libs)

/-- The profile for Hysteria. -/
def hysteriaProfile (server : Tunnel) : Except Failure ManagedProfile :=
  match server.hysteriaUri.filter fun uri => Kotlin.isNotBlank uri with
  | some uri => .ok ⟨literal "Hysteria 2", uri⟩
  | none => .error (.illegalArgument "Hysteria 2 не установлена на сервере")

/-- The profile for the document. -/
def documentProfile (server : Tunnel) (serverDocumentUrl : Option Bytes) :
    Except Failure ManagedProfile :=
  match (serverDocumentUrl.map Kotlin.trim).filter fun url =>
      Kotlin.startsWith url (literal "https://") with
  | none => .error (.illegalArgument "На сервере не найдена ссылка документа")
  | some url =>
    let form := { TunnelPayload.parse server.transportType server.transportConnPayload with url }
    match TunnelPayload.build form with
    | none => .error (.illegalArgument "Не удалось подготовить профиль документа")
    | some payload =>
      let clientConfig : Tunnel := { server with
        transportConnPayload := payload
        adminHost := none
        adminUser := none
        adminPort := none
        serverRevision := 0
        hysteriaUri := none
        connectionMode := ConnectionMode.yandex.name
        autoFallback := false }
      let name := if form.transport = .mailru then "Mail Документы" else "Яндекс Документы"
      .ok ⟨literal name, K.encodeToString clientConfig.encode⟩

/-- `build`. -/
def build (server : Tunnel) (includeYandex includeHysteria : Bool)
    (serverDocumentUrl : Option Bytes) : Except Failure (List ManagedProfile) := do
  let hysteria ← (if includeHysteria then (hysteriaProfile server).map ([·]) else .ok [])
  let document ←
    (if includeYandex then (documentProfile K server serverDocumentUrl).map ([·]) else .ok [])
  .ok (hysteria ++ document)

end ManagedUserProfiles

/-! ### Reading keys -/

structure TunnelBundleProfile where
  name : Bytes := []
  uri : Bytes := []
  deriving DecidableEq

/-- `TunnelBundleProfile` out of JSON. -/
def TunnelBundleProfile.decode : Json → Option TunnelBundleProfile :=
  asObject fun members => do
    let name ← defaulted "name" Json.asString [] members
    let uri ← defaulted "uri" Json.asString [] members
    some { name, uri }

structure TunnelBundle where
  version : Int32 := 1
  userId : Bytes := []
  profiles : List TunnelBundleProfile := []
  expires : Option Int64 := none
  deriving DecidableEq

/-- `TunnelBundle` out of JSON. -/
def TunnelBundle.decode : Json → Option TunnelBundle :=
  asObject fun members => do
    let version ← defaulted "v" asInt 1 members
    let userId ← defaulted "u" Json.asString [] members
    let profiles ← defaulted "p" (asList TunnelBundleProfile.decode) [] members
    let expires ← defaulted "e" (nullable asLong) none members
    some { version, userId, profiles, expires }

namespace TunnelBundleParser

variable (K : Libs)

/-- `decodeFromString<Tunnel>`. -/
def decodeTunnel (text : Bytes) : Option Tunnel := (K.decodeFromString text).bind Tunnel.decode

/-- `withoutAdmin`. -/
def withoutAdmin (t : Tunnel) (id : Int64) : Tunnel :=
  { t with id, adminHost := none, adminUser := none, adminPort := none, serverRevision := 0 }

/-- The tunnel of a bundle without a document. -/
def hysteriaBase (bundle : TunnelBundle) (id : Int64) : Tunnel where
  id := id
  name := Kotlin.trimEnd [literal " ", literal "·"]
    (literal "TERZAET · " ++ Kotlin.take 8 bundle.userId)
  transportType := TransportType.yandex.name
  transportConnPayload := []

/-- The tunnel that `parse` returns, by the tunnel it is a copy of and the link. -/
def imported (base : Tunnel) (hysteria : Option Bytes) (id : Int64) : Tunnel :=
  { base with
    id
    adminHost := none
    adminUser := none
    adminPort := none
    serverRevision := 0
    hysteriaUri := hysteria
    connectionMode :=
      if base.transportConnPayload = [] ∧ hysteria ≠ none then ConnectionMode.hysteria2.name
      else if hysteria ≠ none then ConnectionMode.auto.name
      else ConnectionMode.yandex.name
    autoFallback := hysteria.any Kotlin.isNotBlank && base.transportConnPayload ≠ [] }

/-- The tunnel for a bundle. -/
def ofBundle (bundle : TunnelBundle) (id : Int64) : Except Failure Tunnel := do
  require (bundle.version = 1) "Unsupported TERZAET key version"
  let yandex := bundle.profiles.findSome? fun profile => decodeTunnel K profile.uri
  let hysteria := (bundle.profiles.find? fun profile =>
    Kotlin.startsWithIgnoreCase profile.uri (literal "hysteria2://")).map (·.uri)
  require (yandex ≠ none ∨ hysteria ≠ none) "TERZAET key has no supported profile"
  .ok (imported (yandex.getD (hysteriaBase bundle id)) hysteria id)

/-- `parse`. -/
def parse (raw : Bytes) (id : Int64) : Except Failure Tunnel := do
  let value := Kotlin.trim raw
  if Kotlin.startsWith value (literal "\x7b") then
    let tunnel ← orFailure (decodeTunnel K value)
    .ok (withoutAdmin tunnel id)
  else
    require (Kotlin.startsWithIgnoreCase value (literal "terzaet://")) "Unsupported TERZAET key"
    let token := value.drop 10
    let separator := token.idxOf 0x2E
    -- without a dot, the index is the length
    require (0 < separator ∧ separator + 1 < token.length) "Malformed TERZAET key"
    require (token.drop (separator + 1) ≠ []) "Missing TERZAET key signature"
    let payload ← orFailure (K.urlDecode (token.take separator))
    let bundle ← orFailure ((K.decodeFromString payload).bind TunnelBundle.decode)
    ofBundle K bundle id

end TunnelBundleParser

end OpenFlux.App
