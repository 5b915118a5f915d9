import OpenFlux.Algorithm.EventSystem
import OpenFlux.Go.JsonStruct
import OpenFlux.Go.Time

/-!
# The control store (`control/store.go`)

The users that the control API manages, in memory and in a file.  `Create`, `Revoke` and `Delete`
change the memory and then call `saveLocked`, which writes all users to a temporary file and renames
it.  How the calls of the operating system end is part of the operation, and the mutex makes every
operation one step.

Reading a file back gives the users that were written, so a file is modelled by what its text
decodes to.  The texts of users and profiles come out of JSON requests.
-/

namespace OpenFlux.Control

structure User where
  id : Bytes := []
  userAlias : Bytes := []
  trafficCap : Int64 := 0
  timeCap : Int64 := 0
  createdAt : Time := .zero
  revokedAt : Time := .zero
  bundle : Bytes := []
  deriving DecidableEq

/-- `User` as JSON. -/
def User.json (u : User) : Json :=
  structJson [
    { name := "id", value := .string u.id },
    { name := "alias", value := .string u.userAlias },
    { name := "trafficCap", value := .int u.trafficCap.toInt },
    { name := "timeCap", value := .int u.timeCap.toInt },
    { name := "createdAt", value := .struct (.str u.createdAt.format) },
    { name := "revokedAt", value := .struct (.str u.revokedAt.format), omitempty := true },
    { name := "bundle", value := .string u.bundle }]

structure Profile where
  name : Bytes
  uri : Bytes
  deriving DecidableEq

/-- `Profile` as JSON. -/
def Profile.json (p : Profile) : Json :=
  structJson [
    { name := "name", value := .string p.name },
    { name := "uri", value := .string p.uri }]

structure Bundle where
  version : ℤ
  userID : Bytes
  -- `none` is nil
  profiles : Option (List Profile)
  expires : Int64 := 0
  deriving DecidableEq

/-- `Bundle` as JSON. -/
def Bundle.json (b : Bundle) : Json :=
  structJson [
    { name := "v", value := .int b.version },
    { name := "u", value := .string b.userID },
    { name := "p", value := .slice (b.profiles.map (·.map Profile.json)) },
    { name := "e", value := .int b.expires.toInt, omitempty := true }]

/-- What `Create` uses of the standard library: the text that `json.Marshal` writes for a value, and
`hmac` with `sha256.New` under a key. -/
structure Libs where
  marshal : Json → Bytes
  hmacSHA256 : Bytes → Bytes → Bytes

/-- The signed bundle that is handed to the user. -/
def bundleToken (L : Libs) (secret : Bytes) (bundle : Bundle) : Bytes :=
  let payload := L.marshal bundle.json
  literal "terzaet://" ++ encodeRawURL payload ++ literal "." ++
    encodeRawURL (L.hmacSHA256 secret payload)

/-- The contents of a file. -/
inductive Contents
  -- a `storeFile`
  | users (users : List User)
  -- a text that cannot be decoded
  | other
  deriving DecidableEq

structure Store where
  secret : Bytes
  users : List User := []
  -- the files `path` and `path + ".tmp"`, where they exist
  file : Option Contents := none
  tmp : Option Contents := none
  deriving DecidableEq

namespace Store

/-- `List`. -/
def list (s : Store) : List User := s.users

/-- The users that `Open` takes from the file: none if it cannot be decoded. -/
def saved (s : Store) : List User :=
  match s.file with
  | some (.users users) => users
  | _ => []

/-- `Open`. -/
def reopen (s : Store) : Store := { s with users := s.saved }

end Store

/-- How the steps of `saveLocked` end. -/
inductive SaveResult
  | saved
  | notEncoded (err : String)
  -- the temporary file is left in some state
  | notWritten (err : String) (tmp : Option Contents)
  | notRenamed (err : String)
  deriving DecidableEq

namespace Store

/-- `saveLocked`, with its error. -/
def saveLocked (s : Store) : SaveResult → Store × Option String
  | .saved => ({ s with file := some (.users s.users), tmp := none }, none)
  | .notEncoded err => (s, some err)
  | .notWritten err tmp => ({ s with tmp }, some err)
  | .notRenamed err => ({ s with tmp := some (.users s.users) }, some err)

/-- `Create`, with the random bytes of the id or the error of `rand.Read`.  A bundle can always be
encoded. -/
def create (L : Libs) (s : Store) (userAlias : Bytes) (trafficCap timeCap : Int64)
    (profiles : Option (List Profile)) (random : Except String Bytes) (now : Time)
    (save : SaveResult) : Store × User × Option String :=
  match random with
  | .error err => (s, {}, some err)
  | .ok idBytes =>
    let id := hexEncode idBytes
    let u : User := {
      id, userAlias, trafficCap, timeCap, createdAt := now
      bundle := bundleToken L s.secret { version := 1, userID := id, profiles } }
    let r := { s with users := s.users ++ [u] }.saveLocked save
    (r.1, u, r.2)

/-- `Revoke`: the first user of this id is marked. -/
def revoke (s : Store) (id : Bytes) (now : Time) (save : SaveResult) : Store × Option String :=
  match s.users.findIdx? (·.id = id) with
  | some i =>
    { s with users := s.users.modify i fun u => { u with revokedAt := now } }.saveLocked save
  | none => (s, some "file does not exist")

/-- `Delete`: the first user of this id is removed. -/
def delete (s : Store) (id : Bytes) (save : SaveResult) : Store × Option String :=
  match s.users.findIdx? (·.id = id) with
  | some i => { s with users := s.users.eraseIdx i }.saveLocked save
  | none => (s, some "file does not exist")

end Store

inductive Event
  | create (userAlias : Bytes) (trafficCap timeCap : Int64) (profiles : Option (List Profile))
    (random : Except String Bytes) (now : Time) (save : SaveResult)
  | revoke (id : Bytes) (now : Time) (save : SaveResult)
  | delete (id : Bytes) (save : SaveResult)
  -- the server is started again
  | reopen

/-- An operation, with the error it returns. -/
def Store.apply (L : Libs) (s : Store) : Event → Store × Option String
  | .create userAlias trafficCap timeCap profiles random now save =>
    let r := s.create L userAlias trafficCap timeCap profiles random now save
    (r.1, r.2.2)
  | .revoke id now save => s.revoke id now save
  | .delete id save => s.delete id save
  | .reopen => (s.reopen, none)

/-- The store, opened on a file. -/
def system (L : Libs) (secret : Bytes) (file : Option Contents) : EventSystem Store Event where
  init := Store.reopen { secret, file }
  step s e := some (s.apply L e).1

end OpenFlux.Control
