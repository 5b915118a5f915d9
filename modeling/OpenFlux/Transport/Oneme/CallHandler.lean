import OpenFlux.Go.Base64
import OpenFlux.Go.Dynamic
import OpenFlux.Go.Json

/-!
# A MAX call (`transport/oneme/max_call.go`)

`CallHandler` as its message handlers and `readLoop` see it, with what they write on connections.
Connections are numbered in the order in which they were dialled.  A peer connection (`PC`) and a
data channel (`DC`) are values of the WebRTC library, whose functions are parameters (`Library`),
as are the conversions of a `float64` (`F`).

A message handler runs in a goroutine of its own and is interrupted where it sleeps: `Pauses` says
what other goroutines do to the handler's fields meanwhile.  It is a function to `Option`, `none`
being a panic.  It is given what `json.Unmarshal` leaves in `data`, a map without members if that
fails.

The functions that log are left out, and the callbacks that are handed to the library.
-/

namespace OpenFlux.Transport.Oneme

/-- `useICEInjection`, which nothing assigns. -/
def useICEInjection : Bool := true

inductive Role
  | caller
  | receiver
  deriving DecidableEq

/-- `webrtc.ICEServer`, with a password. -/
structure ICEServer where
  urls : List Bytes
  username : Bytes
  credential : Bytes

/-- `webrtc.ICECandidateInit`. -/
structure ICECandidateInit where
  candidate : Bytes
  sdpMid : Bytes
  sdpMLineIndex : UInt16

/-- The WebRTC library and the conversions of a `float64`.  A result `none` is an error. -/
structure Library (F PC DC : Type) where
  toInt64 : F → Int64
  toUint16 : F → UInt16
  newPeerConnection : ICEServer → Option PC
  createDataChannel : PC → PC × Option DC
  createOffer : PC → Option Bytes
  createAnswer : PC → Option Bytes
  setRemoteDescription : PC → Bytes → Bytes → Option PC
  addICECandidate : PC → ICECandidateInit → PC

/-- `CallHandler`. -/
structure CallHandler (F PC DC : Type) where
  pc : Option PC := none
  dc : Option DC := none
  conn : Option ℕ := none
  localID : Int64 := 0
  remoteID : Int64 := 0
  seq : Int64 := 1
  callAccepted : Bool := false
  acceptSent : Bool := false
  hasRemoteDesc : Bool := false
  pendingCandidates : List (GoMap F) := []
  -- whether `dcInbound` is set
  dcInbound : Bool := false

/-- What other goroutines do to the handler during a pause.  Only the reconnect loop of a caller
sets `pc` to nil. -/
structure Meanwhile (F PC DC : Type) (role : Role) where
  -- the last assignment to `pc`, if there is one
  pc : Option (Option PC)
  others : CallHandler F PC DC → CallHandler F PC DC
  keeps_pc : role = .receiver → pc ≠ some none

/-- The pauses of a message handler. -/
structure Pauses (F PC DC : Type) (role : Role) where
  -- the wait for the call to be accepted
  waiting : Meanwhile F PC DC role
  -- 200 ms before an offer, 300 ms before an answer
  settling : Meanwhile F PC DC role

variable {F PC DC : Type} {role : Role}

/-- The handler after a pause. -/
def Meanwhile.after (m : Meanwhile F PC DC role) (h : CallHandler F PC DC) : CallHandler F PC DC :=
  { m.others h with pc := m.pc.getD h.pc }

namespace CallHandler

/-! ### Commands -/

/-- The command that `sendAcceptCall` writes. -/
def acceptCommand (seq : Int64) : Bytes :=
  literal "\x7b\"command\":\"accept-call\",\"sequence\":" ++ decimal seq.toInt ++
    literal (",\"mediaSettings\":\x7b\"isAudioEnabled\":true,\"isVideoEnabled\":false," ++
      "\"isScreenSharingEnabled\":false,\"isFastScreenSharingEnabled\":false," ++
      "\"isAudioSharingEnabled\":false,\"isAnimojiEnabled\":false\x7d\x7d")

/-- `sendAcceptCall` with the lock held, and what it writes on which connection. -/
def writeAccept (h : CallHandler F PC DC) : CallHandler F PC DC × Option (ℕ × Bytes) :=
  match h.conn with
  | none => (h, none)
  | some conn => ({ h with seq := h.seq + 1 }, some (conn, acceptCommand h.seq))

/-- `sendAcceptCall`, if nothing comes between its steps. -/
def sendAcceptCall (h : CallHandler F PC DC) : CallHandler F PC DC × Option (ℕ × Bytes) :=
  if h.acceptSent then (h, none) else { h with acceptSent := true }.writeAccept

/-- `sendSDP`, which does not write its message. -/
def sendSDP (h : CallHandler F PC DC) : CallHandler F PC DC :=
  if h.conn.isNone then h else { h with seq := h.seq + 1 }

/-- The command that `injectICE` writes. -/
def injectCommand (seq localID : Int64) (payload : Bytes) : Bytes :=
  literal "\x7b\"command\":\"transmit-data\",\"sequence\":" ++ decimal seq.toInt ++
    literal ",\"participantId\":" ++ decimal localID.toInt ++
    literal ",\"data\":\x7b\"candidate\":\x7b\"candidate\":\"" ++
    Base64.encode stdEncoding payload ++ literal "\"\x7d\x7d,\"participantType\":\"USER\"\x7d"

/-- `injectICE`, with what it writes on which connection. -/
def injectICE (h : CallHandler F PC DC) (payload : Bytes) :
    CallHandler F PC DC × Option (ℕ × Bytes) :=
  match h.conn with
  | none => (h, none)
  | some conn =>
    ({ h with seq := h.seq + 1 }, some (conn, injectCommand h.seq h.localID payload))

/-- What `Send` puts out. -/
inductive Sent (DC : Type)
  | text (conn : ℕ) (text : Bytes)
  | data (dc : DC) (data : Bytes)

/-- `CallHandler.Send`. -/
def send (h : CallHandler F PC DC) (data : Bytes) : CallHandler F PC DC × Option (Sent DC) :=
  if useICEInjection then
    let (h, written) := h.injectICE data
    (h, written.map fun w => .text w.1 w.2)
  else (h, h.dc.map fun dc => .data dc data)

/-! ### Candidates -/

/-- The argument of `AddICECandidate`. -/
def candidateInit (lib : Library F PC DC) (c : GoMap F) : ICECandidateInit where
  candidate := (c.lookup (literal "candidate")).asString.getD []
  sdpMid := (c.lookup (literal "sdpMid")).asString.getD []
  sdpMLineIndex := ((c.lookup (literal "sdpMLineIndex")).asNumber.map lib.toUint16).getD 0

def addICECandidate (lib : Library F PC DC) (h : CallHandler F PC DC) (c : GoMap F) :
    CallHandler F PC DC :=
  { h with pc := h.pc.map fun pc => lib.addICECandidate pc (candidateInit lib c) }

def bufferOrAddICE (lib : Library F PC DC) (h : CallHandler F PC DC) (c : GoMap F) :
    CallHandler F PC DC :=
  if h.hasRemoteDesc then h.addICECandidate lib c
  else { h with pendingCandidates := h.pendingCandidates ++ [c] }

def flushPendingCandidates (lib : Library F PC DC) (h : CallHandler F PC DC) :
    CallHandler F PC DC :=
  { h.pendingCandidates.foldl (addICECandidate lib) h with pendingCandidates := [] }

/-! ### Messages -/

/-- Whether one of the roles is `CREATOR`. -/
def isCreator (roles : List (Dynamic F)) : Option Bool :=
  roles.foldlM (fun found r => r.asString.map fun s => found || s = literal "CREATOR") false

/-- A participant of the conversation.  The local one is the creator for the receiver (`creator`),
and one who is not for the caller. -/
def participant (lib : Library F PC DC) (creator : Bool) (h : CallHandler F PC DC)
    (p : Dynamic F) : Option (CallHandler F PC DC) := do
  let part ← p.asMap
  let isCreator ← isCreator ((part.lookup (literal "roles")).asSlice.getD [])
  if isCreator = creator then
    (part.lookup (literal "id")).asNumber.map fun id => { h with localID := lib.toInt64 id }
  else return h

/-- The part of both message handlers that looks for `localID`. -/
def findLocalID (lib : Library F PC DC) (creator : Bool) (data : GoMap F)
    (h : CallHandler F PC DC) : Option (CallHandler F PC DC) :=
  if h.localID = 0 then
    match (data.lookup (literal "conversation")).asMap with
    | some conv =>
      match (conv.lookup (literal "participants")).asSlice with
      | some parts => parts.foldlM (participant lib creator) h
      | none => some h
    | none => some h
  else some h

/-- `stunURLs`, which is only logged. -/
def stunURLs (stun : GoMap F) : Option (List Bytes) :=
  match (stun.lookup (literal "urls")).asSlice with
  | some (url :: _) => url.asString.map fun url => [url]
  | _ => some []

def turnURLs (turn : GoMap F) : Option (List Bytes) :=
  match (turn.lookup (literal "urls")).asSlice with
  | some urls => urls.mapM Dynamic.asString
  | none => some []

/-- The server in the configuration of `createPeerConnection`. -/
def iceServer (convParams : GoMap F) : Option ICEServer := do
  let turn ← (convParams.lookup (literal "turn")).asMap
  let stun ← (convParams.lookup (literal "stun")).asMap
  let _ ← stunURLs stun
  let urls ← turnURLs turn
  return {
    urls
    username := (turn.lookup (literal "username")).asString.getD []
    credential := (turn.lookup (literal "credential")).asString.getD [] }

def createPeerConnection (lib : Library F PC DC) (convParams : GoMap F)
    (h : CallHandler F PC DC) : Option (CallHandler F PC DC) := do
  let server ← iceServer convParams
  match lib.newPeerConnection server with
  | none => return h
  | some pc =>
    match lib.createDataChannel pc with
    | (pc, none) => return { h with pc := some pc }
    | (pc, some dc) => return { h with pc := some pc, dc := some dc }

def handleSDP (lib : Library F PC DC) (pauses : Pauses F PC DC role) (sdpType sdpStr : Bytes)
    (h : CallHandler F PC DC) : Option (CallHandler F PC DC) :=
  match h.pc with
  | none => some h
  | some pc =>
    if sdpType = literal "offer" then
      match lib.setRemoteDescription pc sdpType sdpStr with
      | none => some h
      | some pc => do
        let h := pauses.settling.after { h with pc := some pc }
        let h := { h with hasRemoteDesc := true }.flushPendingCandidates lib
        let pc ← h.pc
        match lib.createAnswer pc with
        | none => return h
        | some _ => return h.sendSDP
    else if sdpType = literal "answer" then
      match lib.setRemoteDescription pc sdpType sdpStr with
      | none => some h
      | some pc => some ({ h with pc := some pc, hasRemoteDesc := true }.flushPendingCandidates lib)
    else some h

/-- A candidate: the handler and, under injection, the payload that `dcInbound` is called with. -/
def candidate (lib : Library F PC DC) (c : GoMap F) (h : CallHandler F PC DC) :
    Option (CallHandler F PC DC × Option Bytes) :=
  if useICEInjection then
    let candidateStr := (c.lookup (literal "candidate")).asString.getD []
    let decode := Base64.written stdEncoding candidateStr
    -- a call of a nil function is a panic
    if h.dcInbound then some (h, some decode) else none
  else some (h.bufferOrAddICE lib c, none)

/-- `msgHandler` of `startOutgoingCall`.  Under injection the first second ends the wait for
`callAccepted`. -/
def outgoingHandler (lib : Library F PC DC) (pauses : Pauses F PC DC .caller) (data : GoMap F)
    (h : CallHandler F PC DC) : Option (CallHandler F PC DC × Option Bytes) := do
  let h ← h.findLocalID lib false data
  match (data.lookup (literal "conversationParams")).asMap with
  | some cp =>
    let h ← (pauses.waiting.after h).createPeerConnection lib cp
    let h := pauses.settling.after h
    let pc ← h.pc
    match lib.createOffer pc with
    | none => return (h, none)
    | some _ => return (h.sendSDP, none)
  | none =>
    match (data.lookup (literal "data")).asMap with
    | none => return (h, none)
    | some d =>
      match (d.lookup (literal "sdp")).asMap with
      | some sdp =>
        let sdpType := (sdp.lookup (literal "type")).asString.getD []
        if sdpType = literal "answer" ∧ !useICEInjection then
          let sdpStr ← (sdp.lookup (literal "sdp")).asString
          return (← h.handleSDP lib pauses sdpType sdpStr, none)
        return (h, none)
      | none =>
        match (d.lookup (literal "candidate")).asMap with
        | some c => h.candidate lib c
        | none => return (h, none)

/-- `msgHandler` of `startIncomingListener`. -/
def incomingHandler (lib : Library F PC DC) (pauses : Pauses F PC DC .receiver) (data : GoMap F)
    (h : CallHandler F PC DC) : Option (CallHandler F PC DC × Option Bytes) := do
  let h ← h.findLocalID lib true data
  match (data.lookup (literal "conversationParams")).asMap with
  | some cp => return (← h.createPeerConnection lib cp, none)
  | none =>
    match (data.lookup (literal "data")).asMap with
    | none => return (h, none)
    | some d =>
      match (d.lookup (literal "sdp")).asMap with
      | some sdp =>
        let sdpType ← (sdp.lookup (literal "type")).asString
        let sdpStr ← (sdp.lookup (literal "sdp")).asString
        return (← h.handleSDP lib pauses sdpType sdpStr, none)
      | none =>
        match (d.lookup (literal "candidate")).asMap with
        | some c => h.candidate lib c
        | none => return (h, none)

/-- `msgHandler`, by the role of the handler. -/
def msgHandler (lib : Library F PC DC) :
    (role : Role) → Pauses F PC DC role → GoMap F → CallHandler F PC DC →
      Option (CallHandler F PC DC × Option Bytes)
  | .caller => outgoingHandler lib
  | .receiver => incomingHandler lib

/-! ### Reading -/

/-- What `readLoop` does with a message, beyond what it notes in the handler. -/
inductive Reading (F : Type)
  | none
  -- `pong` is written on a connection
  | pong (conn : ℕ)
  -- `go h.msgHandler(text)`, by what the text is decoded to
  | go (data : GoMap F)

/-- An iteration of `readLoop` after `ReadMessage`. -/
def readMessage (lib : Library F PC DC) (unmarshal : Bytes → Option (GoMap F)) (text : Bytes)
    (h : CallHandler F PC DC) : CallHandler F PC DC × Reading F :=
  if contains text (literal "accepted-call") then ({ h with callAccepted := true }, .none)
  else if text = literal "ping" then
    match h.conn with
    | some conn => (h, .pong conn)
    | none => (h, .none)
  else if text.length < 10 then (h, .none)
  else
    match unmarshal text with
    | none => (h, .none)
    | some data =>
      if (data.lookup (literal "type")).asString = some (literal "response") then (h, .none)
      else if (data.lookup (literal "type")).asString = some (literal "error") then (h, .none)
      else
        match (data.lookup (literal "participantId")).asNumber with
        | some pid => ({ h with remoteID := lib.toInt64 pid }, .go data)
        | none => (h, .go data)

end CallHandler

end OpenFlux.Transport.Oneme
