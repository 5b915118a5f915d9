import OpenFlux.Transport.Batched
import OpenFlux.Transport.Compressed
import OpenFlux.Transport.Cupsonline.Flows
import OpenFlux.Transport.Encrypted

/-!
# The stack of `--transport=cupsonline` (`main.go`)

`main` wraps the transport in the layer of the codec and that, with `--encryption-key-file`, in an
`EncryptedTransport`.  The bytes that reach `CupsonlineTransport.Send` are what the codec makes of
sealed or plain packets: a batch from the flush loop, or one compressed packet from `Send` itself.
-/

namespace OpenFlux.Transport.Cupsonline

/-- `--codec`. -/
inductive Codec
  | batched
  | legacy
  deriving DecidableEq

/-- What `main` is configured with: the codec with the compressors and tunables it uses, and the
encryption layer, if there is one. -/
structure Options where
  codec : Codec
  zstd : Zstd
  lz4 : Lz4
  batching : Batched.Config
  crypto : Crypto
  encryption : Option Encrypted.EncryptedTransport
  cups : Config

/-- The queue and the loop of the batching layer, and the transport below. -/
structure Stack (n : ℕ) where
  queue : List Bytes := []
  pc : Batched.FlushPc := .top
  cups : CupsonlineTransport n := .start

inductive Stack.Event (n : ℕ)
  -- `Send` of the transport on top, with what `rand.Read` did
  | send (rand : Except String Encrypted.Nonce) (data : Bytes)
  -- a step of the flush loop
  | flush (timer : Bool)
  -- a step of the `sendLoop` of a room
  | take (i : Fin n)

namespace Stack

variable {n : ℕ}

/-- `Send` of the encryption layer up to the layer below: the bytes passed on. -/
def sealed (o : Options) (rand : Except String Encrypted.Nonce) (data : Bytes) :
    Except String Bytes :=
  match o.encryption with
  | some e => e.send o.crypto rand data
  | none => .ok data

/-- `Send` of the codec's layer. -/
def sendCodec (o : Options) (s : Stack n) (data : Bytes) : Option (Stack n) :=
  match o.codec with
  | .batched => some { s with queue := (Batched.send s.queue data).1 }
  | .legacy => (s.cups.send o.cups (compress o.lz4 data)).map fun r => { s with cups := r.1 }

/-- `Send` of the stack. -/
def send (o : Options) (s : Stack n) (rand : Except String Encrypted.Nonce) (data : Bytes) :
    Option (Stack n) :=
  match sealed o rand data with
  | .error _ => some s
  | .ok packet => s.sendCodec o packet

/-- A step of the flush loop.  It drops the error of the `Send` below. -/
def flush (o : Options) (s : Stack n) (timer : Bool) : Option (Stack n) :=
  match o.codec, Batched.flushStep o.zstd o.batching true timer s.queue s.pc with
  | .batched, some (pc, queue, some frame) =>
    (s.cups.send o.cups frame).map fun r => { pc, queue, cups := r.1 }
  | .batched, some (pc, queue, none) => some { s with pc, queue }
  | _, _ => none

end Stack

/-- The stack over `n` connected rooms. -/
def stack (o : Options) (n : ℕ) : EventSystem (Stack n) (Stack.Event n) where
  init := {}
  step s e :=
    match e with
    | .send rand data => s.send o rand data
    | .flush timer => s.flush o timer
    | .take i => some { s with cups := s.cups.take i }

end OpenFlux.Transport.Cupsonline
