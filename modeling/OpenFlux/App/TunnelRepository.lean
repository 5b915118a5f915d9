import OpenFlux.App.AccessKey
import OpenFlux.App.TunnelsViewModel

/-!
# The stored tunnels (`TunnelRepository.kt`, `TunnelsViewModel.kt`)

`load` and `save` go through the JSON under one key of the preferences, and each command of the view
model that changes the tunnels loads them, changes the list and saves it.  What a command shows in
the end (`refresh`) is left out, as is the move of old preferences into encrypted ones.
-/

namespace OpenFlux.App

/-- The values under `PREF_TUNNELS_KEY` and `PREF_SELECTED_TUNNEL_ID`. -/
structure Preferences where
  tunnels : Option Bytes
  selectedTunnelId : Option Int64
  deriving DecidableEq

namespace Preferences

variable (K : Libs)

/-- What `decodeFromString` makes of a list of tunnels. -/
def decodeTunnels (raw : Bytes) : Option (List Tunnel) :=
  (K.decodeFromString raw).bind (asList Tunnel.decode)

def load (prefs : Preferences) : List Tunnel :=
  match prefs.tunnels with
  | none => []
  | some raw => (decodeTunnels K raw).getD []

def save (prefs : Preferences) (tunnels : List Tunnel) : Preferences :=
  { prefs with tunnels := some (K.encodeToString (.arr (tunnels.map Tunnel.encode))) }

def getSelectedId (prefs : Preferences) : Option Int64 :=
  let value := prefs.selectedTunnelId.getD (-1)
  if value = -1 then none else some value

def setSelectedId (prefs : Preferences) (id : Int64) : Preferences :=
  { prefs with selectedTunnelId := some id }

def getSelected (prefs : Preferences) : Option Tunnel :=
  let tunnels := prefs.load K
  (tunnels.find? fun it => some it.id = prefs.getSelectedId).or tunnels.head?

/-! ### Commands -/

def addTunnel (tunnel : Tunnel) (prefs : Preferences) : Preferences :=
  let current := prefs.load K
  if current.all fun it => it.id ≠ tunnel.id then prefs.save K (current ++ [tunnel]) else prefs

/-- The tunnel with this id is starting or running. -/
def inUse (active : TunnelState) (id : Int64) : Bool :=
  active.isActive && active.tunnel.map Tunnel.id = some id

/-- `removeTunnel` comes to its `removeAll`. -/
def removable (active : TunnelState) (tunnel : Tunnel) : Bool :=
  !(tunnel.adminHost.any fun host => Kotlin.isNotBlank host) && !inUse active tunnel.id

def removeTunnel (active : TunnelState) (tunnel : Tunnel) (prefs : Preferences) : Preferences :=
  if removable active tunnel then
    prefs.save K ((prefs.load K).filter fun it => it.id ≠ tunnel.id)
  else prefs

def updateTunnel (active : TunnelState) (old new : Tunnel) (prefs : Preferences) : Preferences :=
  if inUse active old.id then prefs
  else
    let current := prefs.load K
    match current.findIdx? fun it => it.id = old.id with
    | none => prefs
    | some idx => prefs.save K (current.set idx new)

def setConnectionMode (active : TunnelState) (tunnel : Tunnel) (mode : ConnectionMode)
    (prefs : Preferences) : Preferences :=
  if active.isActive && !active.isUnavailable then prefs
  else
    let current := prefs.load K
    match current.findIdx? fun it => it.id = tunnel.id with
    | none => prefs
    | some index =>
      prefs.save K (current.modify index fun it => { it with connectionMode := mode.name })

end Preferences

/-! ### Sequences of commands -/

inductive Command
  | addTunnel (tunnel : Tunnel)
  | removeTunnel (tunnel : Tunnel)
  | updateTunnel (old new : Tunnel)
  | setConnectionMode (tunnel : Tunnel) (mode : ConnectionMode)

/-- A command, and what the state of the view model is then. -/
structure Call where
  active : TunnelState
  command : Command

/-- The preferences after a call. -/
def Preferences.after (K : Libs) (prefs : Preferences) (c : Call) : Preferences :=
  match c.command with
  | .addTunnel tunnel => prefs.addTunnel K tunnel
  | .removeTunnel tunnel => prefs.removeTunnel K c.active tunnel
  | .updateTunnel old new => prefs.updateTunnel K c.active old new
  | .setConnectionMode tunnel mode => prefs.setConnectionMode K c.active tunnel mode

/-- The preferences under the commands of the view model. -/
def repository (K : Libs) (prefs : Preferences) : EventSystem Preferences Call where
  init := prefs
  step prefs c := some (prefs.after K c)

end OpenFlux.App
