import OpenFlux.Algorithm.JsonIndent
import OpenFlux.Control.Store
import OpenFlux.Go.JsonRead

/-!
# The control store on disk (`control/store.go`)

The server with the texts of its files, where it may crash between any two steps of a save.  What an
operation does to the users is `Store.apply`; here it takes its steps in `saveLocked` one at a time.
After a crash the server is started again and opens the store from the files.

`json.MarshalIndent` indents what `json.Marshal` writes.  The rest of `encoding/json` and the text
of a time are parameters, in one direction of `Libs` and in the other of `Reader`.
-/

namespace OpenFlux.Control

/-- What `Open` uses of the standard library. -/
structure Reader where
  -- the value of a JSON text; a number that is no integer fits no field, as a `bool` does not
  unmarshal : Bytes → Option Json
  -- `Time.UnmarshalJSON`
  parseTime : Bytes → Option Time

/-! ### The text of the file -/

/-- `storeFile` as JSON.  The slice of a store that is saved is not nil. -/
def storeFile (users : List User) : Json :=
  structJson [{ name := "users", value := .slice (some (users.map User.json)) }]

/-- What `saveLocked` writes. -/
def encode (L : Libs) (users : List User) : Bytes := JsonText.indent (L.marshal (storeFile users))

/-- A `User` filled from JSON. -/
def User.ofJson (R : Reader) : Json → Option User
  | .null => some {}
  | .obj members => do
    let id ← Json.stringField (Json.fields (literal "id") members)
    let userAlias ← Json.stringField (Json.fields (literal "alias") members)
    let trafficCap ← Json.int64Field (Json.fields (literal "trafficCap") members)
    let timeCap ← Json.int64Field (Json.fields (literal "timeCap") members)
    let createdAt ← Json.timeField R.parseTime (Json.fields (literal "createdAt") members)
    let revokedAt ← Json.timeField R.parseTime (Json.fields (literal "revokedAt") members)
    let bundle ← Json.stringField (Json.fields (literal "bundle") members)
    return { id, userAlias, trafficCap, timeCap, createdAt, revokedAt, bundle }
  | _ => none

/-- The users of a `storeFile` filled from JSON. -/
def usersOfJson (R : Reader) : Json → Option (List User)
  | .null => some []
  | .obj members =>
    (Json.fields (literal "users") members).foldlM (fun _ value =>
      match value with
      | .arr items => items.mapM (User.ofJson R)
      | .null => some []
      | _ => none) []
  | _ => none

/-- `json.Unmarshal` into a `storeFile`, with `none` for an error. -/
def decode (R : Reader) (data : Bytes) : Option (List User) :=
  (R.unmarshal data).bind (usersOfJson R)

/-! ### Opening -/

/-- The files. -/
structure Disk where
  file : Option Bytes := none
  tmp : Option Bytes := none
  secretFile : Option Bytes := none
  deriving DecidableEq

inductive ReadError
  | notExist
  | other (err : String)
  deriving DecidableEq

/-- `os.ReadFile`, which may fail. -/
def readFile (file : Option Bytes) (fails : Option String) : Except ReadError Bytes :=
  match fails, file with
  | some err, _ => .error (.other err)
  | none, some data => .ok data
  | none, none => .error .notExist

/-- How `os.WriteFile` ends. -/
inductive WriteResult
  | written
  -- the file is left in some state
  | failed (err : String) (left : Option Bytes)
  deriving DecidableEq

/-- What the environment decides in `loadSecret`. -/
structure SecretEnv where
  readErr : Option String := none
  random : Except String { b : Bytes // b.length = 32 }
  mkdirErr : Option String := none
  write : WriteResult := .written

/-- `loadSecret` from `make` on: the file afterwards, and the secret. -/
def generateSecret (file : Option Bytes) (env : SecretEnv) : Option Bytes × Except String Bytes :=
  match env.random with
  | .error err => (file, .error err)
  | .ok secret =>
    match env.mkdirErr with
    | some err => (file, .error err)
    | none =>
      match env.write with
      | .written => (some secret, .ok secret)
      | .failed err left => (left, .error err)

/-- `loadSecret`: the file afterwards, and the secret. -/
def loadSecret (file : Option Bytes) (env : SecretEnv) : Option Bytes × Except String Bytes :=
  match readFile file env.readErr with
  | .ok data => if 32 ≤ data.length then (file, .ok data) else generateSecret file env
  | .error _ => generateSecret file env

/-- A store that is open. -/
structure OpenStore where
  secret : Bytes
  users : List User
  deriving DecidableEq

structure OpenEnv where
  secret : SecretEnv
  readErr : Option String := none

/-- `Open`: the files afterwards, and the store. -/
def openStore (R : Reader) (disk : Disk) (env : OpenEnv) : Disk × Except String OpenStore :=
  let (secretFile, loaded) := loadSecret disk.secretFile env.secret
  let disk := { disk with secretFile }
  match loaded with
  | .error err => (disk, .error err)
  | .ok secret =>
    match readFile disk.file env.readErr with
    | .ok data => (disk, .ok { secret, users := (decode R data).getD [] })
    | .error .notExist => (disk, .ok { secret, users := [] })
    | .error (.other err) => (disk, .error err)

/-! ### The server -/

/-- A call of `Create`, `Revoke` or `Delete`.  An alias comes out of a JSON request. -/
inductive Op
  | create (userAlias : { s : Bytes // validUTF8 s = true }) (trafficCap timeCap : Int64)
    (profiles : Option (List Profile)) (random : Except String Bytes)
    (now : { t : Time // t.Valid })
  | revoke (id : Bytes) (now : { t : Time // t.Valid })
  | delete (id : Bytes)

/-- The call as an operation whose save ends like this. -/
def Op.event (save : SaveResult) : Op → Event
  | .create userAlias trafficCap timeCap profiles random now =>
    .create userAlias trafficCap timeCap profiles random now save
  | .revoke id now => .revoke id now save
  | .delete id => .delete id save

/-- The users with which a call comes to `saveLocked`, or its error. -/
def OpenStore.change (L : Libs) (m : OpenStore) (op : Op) : Except String (List User) :=
  match Store.apply L { secret := m.secret, users := m.users } (op.event .saved) with
  | (s, none) => .ok s.users
  | (_, some err) => .error err

/-- Where a call stands. -/
inductive SavePc
  | idle
  -- at `os.WriteFile`, with the text
  | creating (data : Bytes)
  -- in it, with that many bytes written
  | writing (data : Bytes) (n : ℕ)
  -- at `os.Rename`
  | renaming (data : Bytes)
  -- at its return
  | returning
  deriving DecidableEq

structure Server where
  disk : Disk
  store : Option OpenStore := none
  pc : SavePc := .idle
  -- history: the users of the last save that was completed, or with which the store was opened
  -- since; those of the save that is in progress, or was at the crash
  completed : List User
  inProgress : Option (List User) := none
  -- history: the ids that were deleted since the store was opened
  deleted : List Bytes := []

inductive ServerEvent
  -- the server is started
  | start (env : OpenEnv)
  | call (op : Op)
  -- the steps of `saveLocked`: the temporary file is created, bytes are written, the writing is
  -- done, the file is renamed
  | create
  | write (n : ℕ)
  | close
  | rename
  -- the call returns nil, or the error of the step where it stands
  | succeed
  | fail
  | crash

namespace Server

variable (L : Libs) (R : Reader)

/-- The server is started, and `Open` called. -/
def start (s : Server) (env : OpenEnv) : Option Server :=
  match s.store with
  | some _ => none
  | none =>
    match openStore R s.disk env with
    | (disk, .error _) => some { s with disk }
    | (disk, .ok m) => some {
        disk
        store := some m
        completed := m.users }

/-- A call up to its save; an error is returned at once. -/
def call (s : Server) (op : Op) : Option Server :=
  match s.store, s.pc with
  | some m, .idle =>
    match m.change L op with
    | .error _ => some s
    | .ok users => some { s with
        store := some { m with users }
        pc := .creating (encode L users)
        inProgress := some users
        deleted := match op with
          | .delete id => id :: s.deleted
          | _ => s.deleted }
  | _, _ => none

def step (s : Server) : ServerEvent → Option Server
  | .start env => s.start R env
  | .call op => s.call L op
  | .create =>
    match s.pc with
    | .creating data => some { s with
        disk := { s.disk with tmp := some [] }
        pc := .writing data 0 }
    | _ => none
  | .write k =>
    match s.pc with
    | .writing data n => some { s with
        disk := { s.disk with tmp := some (data.take (n + k)) }
        pc := .writing data (n + k) }
    | _ => none
  | .close =>
    match s.pc with
    | .writing data n => if data.length ≤ n then some { s with pc := .renaming data } else none
    | _ => none
  | .rename =>
    match s.pc with
    | .renaming _ => some { s with
        disk := { s.disk with file := s.disk.tmp, tmp := none }
        pc := .returning }
    | _ => none
  | .succeed =>
    match s.store, s.pc with
    | some m, .returning => some { s with
        pc := .idle
        completed := m.users
        inProgress := none }
    | _, _ => none
  | .fail =>
    match s.pc with
    | .creating _ | .writing _ _ | .renaming _ => some { s with pc := .idle, inProgress := none }
    | .idle | .returning => none
  | .crash => some { s with store := none, pc := .idle }

end Server

/-- The users in the file: none if there is no file, or it cannot be decoded. -/
def usersIn (R : Reader) (disk : Disk) : List User := (disk.file.bind (decode R)).getD []

/-- The server, before it is started for the first time. -/
def server (L : Libs) (R : Reader) (disk : Disk) : EventSystem Server ServerEvent where
  init := { disk, completed := usersIn R disk }
  step := Server.step L R

end OpenFlux.Control
