import OpenFlux.Algorithm.EventSystem
import OpenFlux.Transport.Cupsonline.Flows

/-!
# Concurrent calls of `Send` (`transport/cupsonline/cupsonline.go`)

`CupsonlineTransport.Send` as its callers run it side by side, on a transport whose `n` rooms are
connected.  A caller sends its packets one after another and takes one step from one access to
shared memory to the next: the operations of `flowMu`, the table `flows`, the atomic counters and
the channels.  A `flowSender` is an object that the table and the callers point to, here by its
number in the order of creation, so that two senders for one flow could be told apart.

The rooms take packets from their queues and may be closed.  The counters `flows` of the rooms count
senders in memory, so they do not overflow.
-/

namespace OpenFlux.Transport.Cupsonline

/-- `flowSender`. -/
structure FlowSender (n : ℕ) where
  seq : UInt64 := 0
  chIdx : Fin n

/-- Where a caller stands in `Send`, with its packet and, once it has one, its `fs`. -/
inductive SendPc
  -- before the first call
  | idle
  -- at `len(t.wss) == 0`
  | rooms (data : Bytes)
  -- at `t.flowMu.RLock()`
  | rLock (data : Bytes)
  -- at `fs, ok := t.flows[key]`
  | lookup (data : Bytes)
  -- at `t.flowMu.RUnlock()`
  | rUnlock (data : Bytes) (fs : Option ℕ)
  -- at `t.flowMu.Lock()`
  | lock (data : Bytes)
  -- at `fs, ok = t.flows[key]`
  | recheck (data : Bytes)
  -- at `t.flows[key] = fs`, for a new sender
  | insert (data : Bytes)
  -- at `t.wss[idx].stats.flows.Add(1)`
  | count (data : Bytes) (fs : ℕ)
  -- at `t.flowMu.Unlock()`
  | unlock (data : Bytes) (fs : ℕ)
  -- at `fs.seq.Add(1)`
  | seqAdd (data : Bytes) (fs : ℕ)
  -- in `cupsWS.Send`
  | put (data : Bytes) (fs : ℕ)
  | returned (result : Except String Unit)

/-- A caller, and the packets it has yet to send. -/
structure Caller where
  pc : SendPc := .idle
  rest : List Bytes

/-- The transport, with its callers. -/
structure Sends (n : ℕ) where
  flows : FlowKey → Option ℕ := fun _ => none
  -- every `flowSender` that was created
  senders : List (FlowSender n) := []
  -- `flowMu`: how many hold it for reading, and whether it is held for writing
  readers : ℕ := 0
  writing : Bool := false
  -- the counter `stats.flows` of each room
  roomFlows : Fin n → ℕ := fun _ => 0
  -- `sendQueue` and `ctx` of each room; a packet has the number of its caller with it
  queues : Fin n → List (ℕ × Bytes) := fun _ => []
  closed : Fin n → Bool := fun _ => false
  callers : List Caller
  -- history: every packet put on a queue, in order
  puts : List (Fin n × ℕ × Bytes) := []

namespace Sends

variable {n : ℕ}

/-- `cupsWS.Send` of the room `r`: `ctx` is the case that its `select` takes. -/
def putWS (cfg : Config) (s : Sends n) (r : Fin n) (caller : ℕ) (data : Bytes) (ctx : Bool) :
    Option (Sends n × SendPc) :=
  if cfg.maxPayloadBytes < data.length then
    some (s, .returned (.error s!"too large: {data.length}"))
  else if ctx then
    if s.closed r then some (s, .returned (.error "closed")) else none
  else if (s.queues r).length < cfg.sendQueueSize then
    some ({ s with
      queues := Function.update s.queues r (s.queues r ++ [(caller, data)])
      puts := s.puts ++ [(r, caller, data)] }, .returned (.ok ()))
  else none

/-- A caller goes on from `pc`: the transport after it, and where it stands then. -/
def exec (cfg : Config) (s : Sends n) (caller : ℕ) (ctx : Bool) :
    SendPc → Option (Sends n × SendPc)
  | .idle | .returned _ => none
  | .rooms data => some (s, if n = 0 then .returned (.error "no ws") else .rLock data)
  | .rLock data =>
    if s.writing then none else some ({ s with readers := s.readers + 1 }, .lookup data)
  | .lookup data => some (s, .rUnlock data (s.flows (extractFlowKey data)))
  | .rUnlock data fs =>
    some ({ s with readers := s.readers - 1 },
      match fs with
      | some fs => .seqAdd data fs
      | none => .lock data)
  | .lock data =>
    if s.writing ∨ 0 < s.readers then none else some ({ s with writing := true }, .recheck data)
  | .recheck data =>
    some (s,
      match s.flows (extractFlowKey data) with
      | some fs => .unlock data fs
      | none => .insert data)
  | .insert data =>
    let key := extractFlowKey data
    if hn : 0 < n then
      let idx : Fin n := ⟨(flowHash key).toNat % n, Nat.mod_lt _ hn⟩
      some ({ s with
        flows := Function.update s.flows key (some s.senders.length)
        senders := s.senders ++ [{ chIdx := idx }] }, .count data s.senders.length)
    else none
  | .count data fs =>
    (s.senders[fs]?).map fun sender =>
      let idx := sender.chIdx
      ({ s with roomFlows := Function.update s.roomFlows idx (s.roomFlows idx + 1) },
        .unlock data fs)
  | .unlock data fs => some ({ s with writing := false }, .seqAdd data fs)
  | .seqAdd data fs =>
    (s.senders[fs]?).map fun sender =>
      ({ s with senders := s.senders.set fs { sender with seq := sender.seq + 1 } }, .put data fs)
  | .put data fs => (s.senders[fs]?).bind fun sender => s.putWS cfg sender.chIdx caller data ctx

/-- The caller `i` takes a step, or calls `Send` with its next packet. -/
def advance (cfg : Config) (s : Sends n) (i : ℕ) (ctx : Bool) : Option (Sends n) :=
  (s.callers[i]?).bind fun c =>
    match c.pc, c.rest with
    | .idle, data :: rest | .returned _, data :: rest =>
      some { s with callers := s.callers.set i { pc := .rooms data, rest } }
    | pc, rest =>
      (s.exec cfg i ctx pc).map fun r => { r.1 with callers := s.callers.set i { pc := r.2, rest } }

inductive Event (n : ℕ)
  | caller (i : ℕ) (ctx : Bool)
  -- the `sendLoop` of a room receives a packet
  | take (r : Fin n)
  -- `close(ws.ctx)`
  | close (r : Fin n)

end Sends

/-- A transport of `n` connected rooms, with callers that have these packets to send. -/
def sends (cfg : Config) (n : ℕ) (packets : List (List Bytes)) :
    EventSystem (Sends n) (Sends.Event n) where
  init := { callers := packets.map fun rest => { rest } }
  step s
    | .caller i ctx => s.advance cfg i ctx
    | .take r => some { s with queues := Function.update s.queues r (s.queues r).tail }
    | .close r => some { s with closed := Function.update s.closed r true }

end OpenFlux.Transport.Cupsonline
