import OpenFlux.Algorithm.Responder
import OpenFlux.App.AccessKey
import OpenFlux.App.ControlApi
import OpenFlux.Control.Server

/-!
# The calls of the control API (`ControlApiClient.kt`)

Each call is one request, and what it returns is read out of the response; every exception is
`none`.  A redirect, which `HttpURLConnection` would follow, is taken for an exception: the paths of
the calls are not redirected as long as the ids have no slashes.  The session over SSH, and the
repair of a server that does not listen, are left out.
-/

namespace OpenFlux.App

open Control

/-- `ManagedProfile` as JSON. -/
def ManagedProfile.encode (p : ManagedProfile) : Json :=
  .obj (property "name" (.str p.name) ++ property "uri" (.str p.uri))

structure ManagedUserRequest where
  userAlias : Bytes
  trafficCap : Int64 := 0
  timeCap : Int64 := 0
  profiles : List ManagedProfile := []
  deriving DecidableEq

/-- `ManagedUserRequest` as JSON. -/
def ManagedUserRequest.encode (v : ManagedUserRequest) : Json :=
  .obj (property "alias" (.str v.userAlias) ++
    propertyUnless 0 "trafficCap" (fun n => .num n.toInt) v.trafficCap ++
    propertyUnless 0 "timeCap" (fun n => .num n.toInt) v.timeCap ++
    propertyUnless [] "profiles" (fun ps => .arr (ps.map ManagedProfile.encode)) v.profiles)

namespace ControlApiClient

inductive Call
  | listUsers
  | createUser (value : ManagedUserRequest)
  | revokeUser (id : Bytes)
  | deleteUser (id : Bytes)
  deriving DecidableEq

namespace Call

def method : Call → Bytes
  | .listUsers => literal "GET"
  | .createUser _ | .revokeUser _ => literal "POST"
  | .deleteUser _ => literal "DELETE"

def path : Call → Bytes
  | .listUsers | .createUser _ => literal "/v1/users"
  | .revokeUser id => literal "/v1/users/" ++ id ++ literal "/revoke"
  | .deleteUser id => literal "/v1/users/" ++ id

def body (K : Libs) : Call → Option Bytes
  | .createUser value => some (K.encodeToString value.encode)
  | _ => none

end Call

/-- What a call returns. -/
inductive Result
  | users (users : List ManagedUser)
  | user (user : ManagedUser)
  | unit
  deriving DecidableEq

/-- The request of a call as the server gets it, whose decoder is `unmarshal`. -/
def request (K : Libs) (unmarshal : Bytes → Option Json) (token : Bytes) (c : Call) :
    Api.Request where
  method := c.method
  escapedPath := c.path
  authorization := literal "Bearer " ++ token
  body := ((c.body K).bind unmarshal).bind Api.UserRequest.ofJson

/-- The text of a response, or an exception. -/
def receive (L : Control.Libs) : Api.Response → Option Bytes
  | .json value => some (L.marshal value ++ [0x0A])
  | .error _ _ | .redirect _ => none

/-- What the call makes of the text. -/
def Call.read (K : Libs) (text : Bytes) : Call → Option Result
  | .listUsers => ((K.decodeFromString text).bind App.listUsers).map .users
  | .createUser _ => ((K.decodeFromString text).bind ManagedUser.decode).map .user
  | .revokeUser _ | .deleteUser _ => some .unit

/-- A call to a server with the token `admin`. -/
def perform (L : Control.Libs) (K : Libs) (unmarshal : Bytes → Option Json) (admin token : Bytes)
    (s : Store) (c : Call × Api.Env) : Store × Option Result :=
  let (s, response) := Api.handler L admin s (request K unmarshal token c.1) c.2
  (s, (receive L response).bind fun text => c.1.read K text)

end ControlApiClient

end OpenFlux.App
