import OpenFlux.App.Kotlinx
import OpenFlux.App.Strings

/-!
# Tunnels (`Tunnel.kt`, `TransportType.kt`, `ConnectionMode.kt`, `TunnelPayload.kt`)

A tunnel as the app stores and passes it on, and the command line in its payload.
-/

namespace OpenFlux.App

/-! ### Transports and modes -/

inductive TransportType
  | yandex
  | vyandex
  | max
  | cupsonline
  | mailru
  deriving DecidableEq

namespace TransportType

/-- `name`. -/
def name : TransportType → Bytes
  | yandex => literal "yandex"
  | vyandex => literal "vyandex"
  | max => literal "max"
  | cupsonline => literal "cupsonline"
  | mailru => literal "mailru"

def cliName : TransportType → Bytes
  | yandex => literal "yandex"
  | vyandex => literal "vyandex"
  | max => literal "oneme"
  | cupsonline => literal "cupsonline"
  | mailru => literal "mailru"

def usesUrl (t : TransportType) : Bool := t ≠ max

def entries : List TransportType := [yandex, vyandex, max, cupsonline, mailru]

/-- `from`. -/
def ofString (raw : Bytes) : TransportType :=
  (entries.find? fun t =>
    Kotlin.equalsIgnoreCase t.name raw || Kotlin.equalsIgnoreCase t.cliName raw).getD yandex

end TransportType

inductive ConnectionMode
  | auto
  | yandex
  | hysteria2
  deriving DecidableEq

namespace ConnectionMode

/-- `name`. -/
def name : ConnectionMode → Bytes
  | auto => literal "auto"
  | yandex => literal "yandex"
  | hysteria2 => literal "hysteria2"

def entries : List ConnectionMode := [auto, yandex, hysteria2]

/-- `from`. -/
def ofString (raw : Bytes) : ConnectionMode :=
  (entries.find? fun m => Kotlin.equalsIgnoreCase m.name raw).getD auto

end ConnectionMode

/-! ### Tunnels -/

structure Tunnel where
  id : Int64
  name : Bytes
  transportType : Bytes
  transportConnPayload : List Bytes
  encryptionKey : Option Bytes := none
  adminHost : Option Bytes := none
  adminUser : Option Bytes := none
  adminPort : Option Int32 := none
  serverRevision : Int32 := 0
  hysteriaUri : Option Bytes := none
  connectionMode : Bytes := ConnectionMode.auto.name
  autoFallback : Bool := true
  deriving DecidableEq

namespace Tunnel

/-- `Tunnel` as JSON. -/
def encode (t : Tunnel) : Json :=
  .obj (property "id" (.num t.id.toInt) ++ property "name" (.str t.name) ++
    property "transportType" (.str t.transportType) ++
    property "transportConnPayload" (.arr (t.transportConnPayload.map .str)) ++
    propertyUnless none "encryptionKey" (orNull .str) t.encryptionKey ++
    propertyUnless none "adminHost" (orNull .str) t.adminHost ++
    propertyUnless none "adminUser" (orNull .str) t.adminUser ++
    propertyUnless none "adminPort" (orNull fun port => .num port.toInt) t.adminPort ++
    propertyUnless 0 "serverRevision" (fun revision => .num revision.toInt) t.serverRevision ++
    propertyUnless none "hysteriaUri" (orNull .str) t.hysteriaUri ++
    propertyUnless ConnectionMode.auto.name "connectionMode" .str t.connectionMode ++
    propertyUnless true "autoFallback" .bool t.autoFallback)

/-- `Tunnel` out of JSON. -/
def decode : Json → Option Tunnel :=
  asObject fun members => do
    let id ← required "id" asLong members
    let name ← required "name" Json.asString members
    let transportType ← required "transportType" Json.asString members
    let transportConnPayload ← required "transportConnPayload" (asList Json.asString) members
    let encryptionKey ← defaulted "encryptionKey" (nullable Json.asString) none members
    let adminHost ← defaulted "adminHost" (nullable Json.asString) none members
    let adminUser ← defaulted "adminUser" (nullable Json.asString) none members
    let adminPort ← defaulted "adminPort" (nullable asInt) none members
    let serverRevision ← defaulted "serverRevision" asInt 0 members
    let hysteriaUri ← defaulted "hysteriaUri" (nullable Json.asString) none members
    let connectionMode ← defaulted "connectionMode" Json.asString ConnectionMode.auto.name members
    let autoFallback ← defaulted "autoFallback" asBoolean true members
    some {
      id, name, transportType, transportConnPayload, encryptionKey, adminHost, adminUser, adminPort,
      serverRevision, hysteriaUri, connectionMode, autoFallback }

end Tunnel

/-! ### Payloads -/

namespace TunnelPayload

structure Form where
  transport : TransportType
  url : Bytes := []
  maxToken : Bytes := []
  maxUid : Bytes := []
  legacyCodec : Bool := false
  debug : Bool := false
  deriving DecidableEq

/-- `build`; there is no payload if a field that the transport needs is empty. -/
def build (form : Form) : Option (List Bytes) :=
  let transportArgs :=
    if form.transport.usesUrl then
      if form.url = [] then none else some [literal "--url", form.url]
    else if form.maxToken = [] ∨ form.maxUid = [] then none
    else some [literal "--maxToken", form.maxToken, literal "--maxUid", form.maxUid]
  transportArgs.map fun transportArgs =>
    [literal "--role", literal "client", literal "--transport", form.transport.cliName] ++
      transportArgs ++
      (if form.legacyCodec then [literal "--codec", literal "legacy"] else []) ++
      (if form.debug then [literal "--debug"] else [])

/-- `value`: what stands after `--name` or `--name=`, with one dash or more. -/
def value (name : String) : List Bytes → Bytes
  | [] => []
  | arg :: payload =>
    if !Kotlin.startsWith arg (literal "-") then value name payload
    else
      let flag := Kotlin.trimStart arg 0x2D
      if flag = literal name then payload.headD []
      else if Kotlin.startsWith flag (literal name ++ literal "=") then
        Kotlin.substringAfter flag 0x3D
      else value name payload

def hasFlag (payload : List Bytes) (name : String) : Bool :=
  payload.any fun arg =>
    Kotlin.startsWith arg (literal "-") && Kotlin.trimStart arg 0x2D = literal name

def parse (transportType : Bytes) (payload : List Bytes) : Form where
  transport := TransportType.ofString transportType
  url := value "url" payload
  maxToken := value "maxToken" payload
  maxUid := value "maxUid" payload
  legacyCodec := value "codec" payload = literal "legacy" || hasFlag payload "legacy"
  debug := hasFlag payload "debug"

end TunnelPayload

end OpenFlux.App
