import OpenFlux.App.Kotlinx

/-!
# The client of the control API (`ControlApiClient.kt`)
-/

namespace OpenFlux.App

structure ManagedUser where
  id : Bytes
  userAlias : Bytes
  trafficCap : Int64
  timeCap : Int64
  createdAt : Bytes
  revokedAt : Option Bytes
  bundle : Bytes
  deriving DecidableEq

/-- `ManagedUser` out of JSON. -/
def ManagedUser.decode : Json → Option ManagedUser :=
  asObject fun members => do
    let id ← required "id" Json.asString members
    let userAlias ← required "alias" Json.asString members
    let trafficCap ← defaulted "trafficCap" asLong 0 members
    let timeCap ← defaulted "timeCap" asLong 0 members
    let createdAt ← defaulted "createdAt" Json.asString [] members
    let revokedAt ← defaulted "revokedAt" (nullable Json.asString) none members
    let bundle ← defaulted "bundle" Json.asString [] members
    some { id, userAlias, trafficCap, timeCap, createdAt, revokedAt, bundle }

/-- `listUsers`, on the response of the server. -/
def listUsers (response : Json) : Option (List ManagedUser) :=
  (nullable (asList ManagedUser.decode) response).map (·.getD [])

end OpenFlux.App
