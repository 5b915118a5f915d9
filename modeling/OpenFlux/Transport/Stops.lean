import OpenFlux.Algorithm.EventSystem
import OpenFlux.Go.Chan

/-!
# Starting and stopping the Volga and the Cups.online transport

`Start` and `Stop` of `YandexVolgaTransport` (`transport/yandex/vyandex.go`) and of
`CupsonlineTransport` (`transport/cupsonline/cupsonline.go`) with the channels that `Stop` closes in
the objects below: those of the `relayClient`, and one in each `cupsWS`.  A call returns before the
next one begins, and what `authorize` returns is part of the call.  `wg.Wait` in `relayClient.Stop`
is taken to return: the workers leave once their queue is closed.
-/

namespace OpenFlux.Transport

open Chan

/-- The flags of `BaseTransport` (`transport/transport.go`). -/
structure BaseTransport where
  running : Bool := false
  connected : Bool := false
  deriving DecidableEq

namespace BaseTransport

/-- `BaseTransport.Start`. -/
def start (b : BaseTransport) : BaseTransport := { b with running := true }

/-- `SetConnected`. -/
def setConnected (b : BaseTransport) (connected : Bool) : BaseTransport := { b with connected }

/-- `BaseTransport.Stop`. -/
def stop (_ : BaseTransport) : BaseTransport := { running := false, connected := false }

end BaseTransport

/-- A call of `Start`, with what `authorize` makes of it, or of `Stop`. -/
inductive LifecycleCall (α : Type*)
  | start (auth : α)
  | stop
  deriving DecidableEq

/-! ### Volga -/

/-- What `relayClient.Stop` cancels and closes. -/
structure RelayClient where
  ctx : Bool := false
  queue : Bool := false
  batchQueue : Bool := false
  deriving DecidableEq

/-- `relayClient.Stop`. -/
def RelayClient.stop (r : RelayClient) : Option RelayClient := do
  let queue ← close r.queue
  let batchQueue ← close r.batchQueue
  return { ctx := true, queue, batchQueue }

/-- The context of a `wsListener`. -/
structure WSListener where
  ctx : Bool := false
  deriving DecidableEq

/-- `wsListener.Stop`. -/
def WSListener.stop (_ : WSListener) : WSListener := { ctx := true }

/-- `YandexVolgaTransport`. -/
structure YandexVolgaTransport where
  base : BaseTransport := {}
  relay : Option RelayClient := none
  ws : Option WSListener := none
  keepAliveStop : Bool := false
  deriving DecidableEq

namespace YandexVolgaTransport

/-- `Start`: the transport after it and its result. -/
def start (t : YandexVolgaTransport) (auth : Except String Unit) :
    YandexVolgaTransport × Except String Unit :=
  let t := { t with base := t.base.start }
  match auth with
  | .error err => (t, .error s!"auth: {err}")
  | .ok () =>
    ({ t with relay := some {}, ws := some {}, base := t.base.setConnected true }, .ok ())

/-- `Stop`. -/
def stop (t : YandexVolgaTransport) : Option YandexVolgaTransport := do
  let keepAliveStop ← closeOnce t.keepAliveStop
  let ws := t.ws.map WSListener.stop
  let relay ← t.relay.mapM RelayClient.stop
  return { keepAliveStop, ws, relay, base := (t.base.setConnected false).stop }

/-- A new transport under calls of `Start` and `Stop`. -/
def system : EventSystem YandexVolgaTransport (LifecycleCall (Except String Unit)) where
  init := {}
  step
    | t, .start auth => some (t.start auth).1
    | t, .stop => t.stop

end YandexVolgaTransport

/-! ### Cups.online -/

/-- What `Stop` sets and closes in a `cupsWS`. -/
structure CupsWS where
  closed : Bool := false
  ctx : Bool := false
  deriving DecidableEq

/-- `ws.closed.Store(true)` and `close(ws.ctx)`. -/
def CupsWS.stop (w : CupsWS) : Option CupsWS := do return { closed := true, ctx := ← close w.ctx }

/-- `CupsonlineTransport`. -/
structure CupsonlineTransport where
  isClient : Bool
  clientErr : Option String
  base : BaseTransport := {}
  stopCh : Bool := false
  wss : List CupsWS := []
  deriving DecidableEq

namespace CupsonlineTransport

/-- `Start`: the transport after it and its result.  `auths` is what `authorize` returns for each
room to join, or for each to create in the end. -/
def start (t : CupsonlineTransport) (auths : List (Except String Unit)) :
    CupsonlineTransport × Except String Unit :=
  match t.clientErr with
  | some err => (t, .error err)
  | none =>
    let t := { t with base := t.base.start }
    let rooms := auths.countP Except.isOk
    if rooms = 0 then
      (t, .error
        (if t.isClient then "no rooms joined" else "create rooms: could not create any room"))
    else
      ({ t with wss := t.wss ++ List.replicate rooms {}, base := t.base.setConnected true }, .ok ())

/-- `Stop`. -/
def stop (t : CupsonlineTransport) : Option CupsonlineTransport := do
  let stopCh ← closeOnce t.stopCh
  let wss ← t.wss.mapM CupsWS.stop
  return { t with stopCh, wss, base := (t.base.setConnected false).stop }

/-- A new transport under calls of `Start` and `Stop`. -/
def system (isClient : Bool) (clientErr : Option String) :
    EventSystem CupsonlineTransport (LifecycleCall (List (Except String Unit))) where
  init := { isClient, clientErr }
  step
    | t, .start auths => some (t.start auths).1
    | t, .stop => t.stop

end CupsonlineTransport

end OpenFlux.Transport
