import Mathlib.Logic.Function.Basic
import OpenFlux.Go.Net

/-!
# The routes of the macOS client (`tun_darwin.go`)

The routing table and what the functions of `TUNClient` do to it with the command `route`.  How a
command ends is not theirs to decide, so a function takes the `Outcome` of each command it may run,
in order.
-/

namespace OpenFlux.Tun

/-! ### The command -/

inductive Destination
  | default
  | net (cidr : Bytes)
  | host (ip : Bytes)
  deriving DecidableEq

inductive Hop
  | gateway (ip : Bytes)
  | interface (name : Bytes)
  deriving DecidableEq

abbrev Table := Destination → Option Hop

/-- A command reaches the routing table, or it fails before, with what it prints then. -/
inductive Outcome
  | runs
  | fails (out : Bytes) (h : contains out (literal "File exists") = false)
  deriving DecidableEq

/-- What `route add` prints for a destination that has a route. -/
def fileExists : Bytes := literal "route: writing to routing socket: File exists"

/-- `route add`, with what it prints if it fails. -/
def routeAdd (t : Table) (d : Destination) (hop : Hop) : Outcome → Option Bytes × Table
  | .fails out _ => (some out, t)
  | .runs => if (t d).isSome then (some fileExists, t) else (none, Function.update t d (some hop))

/-- `route delete`; its errors are ignored. -/
def routeDelete (t : Table) (d : Destination) : Outcome → Table
  | .fails _ _ => t
  | .runs => Function.update t d none

/-- `route delete` of each destination in turn. -/
def deleteAll : List Destination → Table → (ℕ → Outcome) → Table
  | [], t, _ => t
  | d :: ds, t, o => deleteAll ds (routeDelete t d (o 0)) fun n => o (n + 1)

/-! ### The client -/

structure TUNClient where
  name : Bytes
  gateway : Bytes := []
  bypassIPs : List Bytes := []
  routesAdded : Bool := false
  savedIface : Bytes := []
  savedGw : Bytes := []
  defaultSet : Bool := false

/-- The two halves of all addresses. -/
def lower : Destination := .net (literal "0.0.0.0/1")

def upper : Destination := .net (literal "128.0.0.0/1")

/-- `removeRoutes`. -/
def removeRoutes (c : TUNClient) (t : Table) (o : ℕ → Outcome) : TUNClient × Table :=
  if c.routesAdded = false ∧ c.bypassIPs.length = 0 then (c, t)
  else
    ({ c with bypassIPs := [], routesAdded := false },
      deleteAll (lower :: upper :: c.bypassIPs.map .host) t o)

/-- The error of `ConfigureDefault`: the command and what it printed. -/
structure RouteError where
  destination : Destination
  hop : Hop
  out : Bytes

/-- The loop of `ConfigureDefault` and what comes after it. -/
def addDefaults (c : TUNClient) :
    List Destination → Table → (ℕ → Outcome) → Option RouteError × TUNClient × Table
  | [], t, _ => (none, { c with routesAdded := true, defaultSet := true }, t)
  | d :: ds, t, o =>
    match routeAdd t d (.interface c.name) (o 0) with
    | (none, t) => addDefaults c ds t fun n => o (n + 1)
    | (some out, t) => (some ⟨d, .interface c.name, out⟩, removeRoutes c t fun n => o (n + 1))

/-- `ConfigureDefault`. -/
def configureDefault (c : TUNClient) (t : Table) (o : ℕ → Outcome) :
    Option RouteError × TUNClient × Table := addDefaults c [lower, upper] t o

/-- What one line that `route -n get default` prints says. -/
def readLine (saved : Bytes × Bytes) (line : Bytes) : Bytes × Bytes :=
  let line := trimSpace line
  let iface := if (literal "interface:").isPrefixOf line then
    trimSpace (trimPrefix line (literal "interface:")) else saved.1
  let gw := if (literal "gateway:").isPrefixOf line then
    trimSpace (trimPrefix line (literal "gateway:")) else saved.2
  (iface, gw)

/-- `SaveDefault` with what the command prints, or none if it fails. -/
def saveDefault (c : TUNClient) : Option Bytes → Except String TUNClient
  | none => .error "route get default"
  | some out =>
    let saved := (out.splitOn 0x0A).foldl readLine ([], [])
    if saved.1 = [] then .error "could not parse default interface from route output"
    else .ok { c with savedIface := saved.1, savedGw := saved.2 }

/-- What the commands of `SetupInterface` give: the two deletions, whether each `ifconfig` works,
and the gateway that `realGateway` finds. -/
structure Setup where
  deletions : ℕ → Outcome := fun _ => .runs
  up : Bool := true
  mtu : Bool := true
  realGateway : Option Bytes := none

/-- `SetupInterface`. -/
def setupInterface (c : TUNClient) (t : Table) (setup : Setup) : Except String TUNClient × Table :=
  let t := deleteAll [lower, upper] t setup.deletions
  (if !(setup.up && setup.mtu) then .error "ifconfig"
    else if c.savedGw ≠ [] ∧ isIP c.savedGw then .ok { c with gateway := c.savedGw }
    else
      match setup.realGateway with
      | none => .error "no physical interface with IPv4 found"
      | some gw => .ok { c with gateway := gw },
    t)

/-- `Close`, whose other commands are about the interface. -/
def close (c : TUNClient) (t : Table) (o : ℕ → Outcome) : TUNClient × Table := removeRoutes c t o

/-- `RestoreDefault`. -/
def restoreDefault (c : TUNClient) (t : Table) (o : ℕ → Outcome) : TUNClient × Table :=
  if c.defaultSet = false ∧ c.savedIface = [] then (c, t)
  else
    let t := deleteAll [lower, upper] t o
    let c := { c with routesAdded := false }
    if c.savedIface = [] then (c, t)
    else
      let hop : Hop := if c.savedGw ≠ [] ∧ isIP c.savedGw then .gateway c.savedGw
        else .interface c.savedIface
      ({ c with defaultSet := false }, (routeAdd t .default hop (o 2)).2)

end OpenFlux.Tun
