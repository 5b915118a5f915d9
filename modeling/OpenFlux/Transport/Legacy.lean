import OpenFlux.Algorithm.EventSystem
import OpenFlux.Transport.Compressed
import OpenFlux.Transport.Cupsonline.Flows
import OpenFlux.Transport.Cupsonline.Room
import OpenFlux.Transport.DocsSession
import OpenFlux.Transport.Volga

/-!
# The stack of `--codec=legacy` (`main.go`)

`CompressedTransport` over a raw transport and its peer.  A raw transport is a `Link`: the state and
the steps of the sending side's goroutines, the messages they write, and what the other side does
with what its provider hands it.  The provider is a party of its own: a run may hand over anything,
and `Honest` says that what a run hands over was written.

There are four links, `docsLink` for the Yandex Documents and the Mail.ru transport, `volgaLink` and
`cupsLink`.
-/

namespace OpenFlux.Transport

/-- One direction of a raw transport. -/
structure Link where
  Sender : Type
  Step : Type
  Message : Type
  Receiver : Type
  Handed : Type
  -- the two sides after their start
  sender : Sender
  receiver : Receiver
  -- `Send`, or `none` while it blocks
  send : Sender → Bytes → Option (Sender × Except String Unit)
  -- a step of the sender's goroutines, with the messages written
  step : Sender → Step → Option (Sender × List Message)
  -- the packets in a message
  packets : Message → List Bytes
  -- what the provider hands over when it passes the message on
  Passes : Message → Handed → Prop
  -- the packets passed to the receive callback
  receive : Receiver → Handed → Receiver × List Bytes
  -- what the keep-alive loop sends as a packet
  keepAlives : List Bytes

/-! ### The document transports -/

namespace Docs

/-- A message of a document transport. -/
inductive Message
  | packet (p : Bytes)
  | keepAlive

/-- The packets in it. -/
def Message.packets : Message → List Bytes
  | .packet p => [p]
  | .keepAlive => []

/-- Its text. -/
def Message.text : Message → Bytes
  | .packet p => packetMessage p
  | .keepAlive => keepAliveMsg

/-- A step of a goroutine other than `Send`. -/
inductive Step
  | connect (i : ℕ) (outcome : Outcome)
  | write (i : ℕ) (outcome : Outcome)
  | keepAlive (outcome : Outcome)

/-- The step, with the messages written. -/
def step (cfg : SessionConfig) (s : State) : Step → Option (State × List Message)
  | .connect i outcome => (s.stepConnect cfg i outcome).map fun s' => (s', [])
  | .write i outcome =>
    (s.stepWriter i outcome).map fun s' => (s', ((s.writes i outcome).map .packet).toList)
  | .keepAlive outcome =>
    some (s.stepKeepAlive outcome,
      if s.session ≠ none ∧ outcome = .ok then [.keepAlive] else [])

/-- The packet that the receive callback is called with. -/
def Handled.packets : Handled → List Bytes
  | .received data => [data]
  | .ignored | .pong => []

end Docs

/-- The Yandex Documents or the Mail.ru transport. -/
def docsLink (provider : Docs.Provider) (cfg : Docs.SessionConfig) : Link where
  Sender := Docs.State
  Step := Docs.Step
  Message := Docs.Message
  Receiver := Unit
  Handed := Bytes
  sender := {}
  receiver := ()
  send s data := some (s.sendNow cfg data)
  step := Docs.step cfg
  packets := Docs.Message.packets
  Passes m text := text = m.text
  receive _ text := ((), (provider.handleMessage text).packets)
  keepAlives := []

/-! ### The Volga transport -/

namespace Volga

/-- A batch posted, and the client that posted it. -/
structure Posted where
  client : RelayClient
  batch : List Bytes

/-- A step of a worker or of the keep-alive loop. -/
inductive Step (cfg : Config)
  | take (w : Fin cfg.workerCount)
  | flush (w : Fin cfg.workerCount)
  | keepAlive

/-- The step, with the message posted.  A batch whose request fails may have been posted. -/
def step {cfg : Config} (r : Workers cfg) : Step cfg → Option (Workers cfg × List Posted)
  | .take w => (r.take w).map fun r' => (r', [])
  | .flush w => (r.flush w).map fun r' => (r'.1, [⟨r'.2.1, r'.2.2⟩])
  | .keepAlive => some (r.keepAlive, [])

end Volga

/-- The Volga transport, with the frontier of the receiving side. -/
def volgaLink (cfg : Volga.Config) (client : Volga.RelayClient) : Link where
  Sender := Volga.Workers cfg
  Step := Volga.Step cfg
  Message := Volga.Posted
  Receiver := Bytes
  Handed := Json
  sender := { client }
  receiver := []
  send r data :=
    let (queue, result) := Volga.send cfg r.queue data
    some ({ r with queue }, result)
  step := Volga.step
  packets := Volga.Posted.batch
  Passes m raw := Volga.postedMessage (Volga.sendBatch m.client m.batch).2 = some raw
  receive := Volga.handleRelayMessage
  keepAlives := [[0x00]]

/-! ### The Cups.online transport -/

namespace Cupsonline

variable {n : ℕ}

/-- The transport, and the room and the batch of each `sendLoop`. -/
structure Rooms (n : ℕ) where
  cups : CupsonlineTransport n
  rooms : Fin n → Room
  batches : Fin n → List Bytes

/-- What a room writes. -/
inductive Message
  -- the batch of a `sendBatch`
  | cursors (w : Room) (batch : List Bytes)
  | ping (w : Room)

/-- The packets in it. -/
def Message.packets : Message → List Bytes
  | .cursors _ batch => batch
  | .ping _ => []

/-- What the provider hands over for it: the message itself, or a push of the cursors in it. -/
def Message.Passes : Message → Json → Prop
  | .cursors w batch, raw => raw = changeCursors w (batchColumn batch) ∨
      ∃ user, CursorsUpdate raw user (batchColumn batch)
  | .ping w, raw => raw = sharedEditorPing w

/-- A step of a room's `sendLoop` or `keepAliveLoop`. -/
inductive Step (n : ℕ)
  | take (i : Fin n)
  | flush (i : Fin n) (written : Except String Unit)
  | ping (i : Fin n)

/-- The step, with the message written.  A batch is sent when it is full or its timer has fired, and
is full before another packet is taken only if it was sent. -/
def step (cfg : Config) (r : Rooms n) : Step n → Option (Rooms n × List Message)
  | .take i =>
    let batch := r.batches i
    if batch ≠ [] ∧ (cfg.batchMaxPackets ≤ batch.length ∨ cfg.batchMaxBytes ≤ totalBytes batch) then
      none
    else
      match r.cups.queues i with
      | pkt :: _ =>
        some ({ r with
          cups := r.cups.take i
          batches := Function.update r.batches i (batch ++ [pkt]) }, [])
      | [] => none
  | .flush i written =>
    let batch := r.batches i
    if batch = [] then none
    else
      some ({ r with
        rooms := Function.update r.rooms i (sendBatch (r.rooms i) batch written).1
        batches := Function.update r.batches i [] }, [.cursors (r.rooms i) batch])
  | .ping i =>
    some ({ r with
      rooms := Function.update r.rooms i { r.rooms i with rpcID := (r.rooms i).rpcID + 1 } },
      [.ping (r.rooms i)])

end Cupsonline

/-- The Cups.online transport over `n` rooms, `rooms` those of the sender and `peers` those of the
receiver.  The provider hands a message to one of the peer's rooms. -/
def cupsLink (cfg : Cupsonline.Config) {n : ℕ} (rooms peers : Fin n → Cupsonline.Room) : Link where
  Sender := Cupsonline.Rooms n
  Step := Cupsonline.Step n
  Message := Cupsonline.Message
  Receiver := Fin n → Cupsonline.Room
  Handed := Fin n × Json
  sender := ⟨.start, rooms, fun _ => []⟩
  receiver := peers
  send r data := (r.cups.send cfg data).map fun sent => ({ r with cups := sent.1 }, sent.2)
  step := Cupsonline.step cfg
  packets := Cupsonline.Message.packets
  Passes m handed := m.Passes handed.2
  receive w handed :=
    let r := Cupsonline.handleMessage (w handed.1) handed.2
    (Function.update w handed.1 r.1, r.2)
  keepAlives := []

/-! ### The codec on top -/

/-- The raw transports that `main` puts under the codec. -/
inductive RawTransport
  | docs (provider : Docs.Provider)
  | volga
  | cupsonline
  deriving DecidableEq

/-- What the raw transports are configured with. -/
structure RawConfig where
  docs : Docs.SessionConfig
  volga : Volga.Config
  client : Volga.RelayClient
  cups : Cupsonline.Config
  n : ℕ
  rooms : Fin n → Cupsonline.Room
  peers : Fin n → Cupsonline.Room

/-- The link of a raw transport. -/
def RawConfig.link (o : RawConfig) : RawTransport → Link
  | .docs provider => docsLink provider o.docs
  | .volga => volgaLink o.volga o.client
  | .cupsonline => cupsLink o.cups o.rooms o.peers

namespace Legacy

/-- One direction of a connection. -/
structure State (L : Link) where
  sender : L.Sender
  receiver : L.Receiver
  -- history: the packets for which `Send` on top returned nil
  accepted : List Bytes := []
  -- history: the messages written
  written : List L.Message := []
  -- history: what the callback on top was called with
  delivered : List Bytes := []

inductive Event (L : Link)
  -- `Send` on top
  | send (data : Bytes)
  | step (e : L.Step)
  -- the provider hands something to the receiver
  | hand (x : L.Handed)

/-- `CompressedTransport` over the link. -/
def system (z : Lz4) (L : Link) : EventSystem (State L) (Event L) where
  init := { sender := L.sender, receiver := L.receiver }
  step s e :=
    match e with
    | .send data =>
      match L.send s.sender (compress z data) with
      | some (sender, .ok _) => some { s with sender, accepted := s.accepted ++ [data] }
      | some (sender, .error _) => some { s with sender }
      | none => none
    | .step e =>
      (L.step s.sender e).map fun r =>
        { s with sender := r.1, written := s.written ++ r.2 }
    | .hand x =>
      let r := L.receive s.receiver x
      some { s with
        receiver := r.1
        delivered := s.delivered ++ r.2.map (receiveCompressed z) }

/-- The provider hands over only what was written. -/
def Honest {L : Link} (s : State L) : Event L → Prop
  | .hand x => ∃ m ∈ s.written, L.Passes m x
  | _ => True

end Legacy

end OpenFlux.Transport
