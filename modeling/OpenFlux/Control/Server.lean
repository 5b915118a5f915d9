import OpenFlux.Control.Store
import OpenFlux.Go.JsonRead
import OpenFlux.Go.Path

/-!
# The control API (`control/server.go`)

The handlers answer a request and change the store.  What the environment decides (the time, the
random bytes, how a save ends) comes with the request.
-/

namespace OpenFlux.Control

/-- The response of `users` to a `GET`. -/
def Store.getUsers (s : Store) : Json := .arr (s.list.map User.json)

/-- A `Profile` filled from JSON. -/
def Profile.ofJson : Json → Option Profile
  | .null => some ⟨[], []⟩
  | .obj members => do
    let name ← Json.stringField (Json.fields (literal "name") members)
    let uri ← Json.stringField (Json.fields (literal "uri") members)
    return { name, uri }
  | _ => none

namespace Api

/-- The body of a request to create a user. -/
structure UserRequest where
  userAlias : Bytes
  trafficCap : Int64
  timeCap : Int64
  profiles : Option (List Profile)

/-- The field `profiles` filled with these values. -/
def profilesField (values : List Json) : Option (Option (List Profile)) :=
  values.foldlM (fun _ value =>
    match value with
    | .arr items => (items.mapM Profile.ofJson).map some
    | .null => some none
    | _ => none) none

/-- The body filled from JSON. -/
def UserRequest.ofJson : Json → Option UserRequest
  | .null => some ⟨[], 0, 0, none⟩
  | .obj members => do
    let userAlias ← Json.stringField (Json.fields (literal "alias") members)
    let trafficCap ← Json.int64Field (Json.fields (literal "trafficCap") members)
    let timeCap ← Json.int64Field (Json.fields (literal "timeCap") members)
    let profiles ← profilesField (Json.fields (literal "profiles") members)
    return { userAlias, trafficCap, timeCap, profiles }
  | _ => none

structure Request where
  method : Bytes
  -- `r.URL.EscapedPath()`
  escapedPath : Bytes
  -- the header `Authorization`
  authorization : Bytes
  -- what the body decodes to, with `none` for an error
  body : Option UserRequest := none

/-- `r.URL.Path`. -/
def Request.path (r : Request) : Bytes := unescapePath r.escapedPath

inductive Response
  -- `http.Error`
  | error (message : String) (code : ℕ)
  -- `writeJSON`
  | json (value : Json)
  | redirect (path : Bytes)

structure Env where
  now : Time
  random : Except String Bytes
  save : SaveResult

/-- `users`. -/
def users (L : Libs) (s : Store) (r : Request) (env : Env) : Store × Response :=
  if r.method = literal "GET" then (s, .json s.getUsers)
  else if r.method ≠ literal "POST" then (s, .error "method not allowed" 405)
  else
    match r.body with
    | none => (s, .error "invalid request" 400)
    | some req =>
      if trimSpace req.userAlias = [] then (s, .error "invalid request" 400)
      else
        match s.create L (trimSpace req.userAlias) req.trafficCap req.timeCap req.profiles
          env.random env.now env.save with
        | (s, _, some _) => (s, .error "storage error" 500)
        | (s, u, none) => (s, .json u.json)

/-- How `user` answers. -/
def answer : Store × Option String → Store × Response
  | (s, some _) => (s, .error "user not found" 404)
  | (s, none) => (s, .json (.obj [(literal "ok", .bool true)]))

/-- `user`. -/
def user (s : Store) (r : Request) (env : Env) : Store × Response :=
  let id := trim (trimPrefix r.path (literal "/v1/users/")) 0x2F
  if id = [] then (s, .error "missing id" 400)
  else
    let id := trimSuffix id (literal "/revoke")
    if r.method = literal "POST" then answer (s.revoke id env.now env.save)
    else if r.method = literal "DELETE" then answer (s.delete id env.save)
    else (s, .error "method not allowed" 405)

inductive Route
  | health
  | users
  | user
  | notFound
  | redirect (path : Bytes)
  deriving DecidableEq

/-- `http.ServeMux` with the three patterns, which match segment by segment. -/
def route (r : Request) : Route :=
  if r.method ≠ literal "CONNECT" ∧ cleanPath r.escapedPath ≠ r.escapedPath then
    .redirect (cleanPath r.escapedPath)
  else
    match r.escapedPath.splitOn 0x2F with
    | [[], a, b] =>
      if unescapePath a = literal "v1" ∧ unescapePath b = literal "health" then .health
      else if unescapePath a = literal "v1" ∧ unescapePath b = literal "users" then .users
      else .notFound
    | [] :: a :: b :: _ :: _ =>
      if unescapePath a = literal "v1" ∧ unescapePath b = literal "users" then .user
      else .notFound
    | _ => .notFound

/-- `Handler`, with `auth` in front. -/
def handler (L : Libs) (token : Bytes) (s : Store) (r : Request) (env : Env) : Store × Response :=
  if trimPrefix r.authorization (literal "Bearer ") ≠ token then (s, .error "unauthorized" 401)
  else
    match route r with
    | .health => (s, .json (.obj [(literal "ok", .bool true)]))
    | .users => users L s r env
    | .user => user s r env
    | .notFound => (s, .error "404 page not found" 404)
    | .redirect path => (s, .redirect path)

end Api

end OpenFlux.Control
