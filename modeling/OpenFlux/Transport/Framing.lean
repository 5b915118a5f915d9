import OpenFlux.Go.Bytes

/-!
# Batch frames (`transport/framing.go`)

The wire format of the batching layer: a version byte, a flags byte whose bit 0 says that the
payload is zstd-compressed, and the payload, a sequence of records of two big-endian length bytes
and a packet.

The zstd library is a parameter (`Zstd`): its single-shot encoder and decoder.  What the code
relies on is `Zstd.Inverts`, decoding inverts encoding up to a size; nothing is said about the
size of the encoder's output.
-/

namespace OpenFlux.Transport

/-- `batchFormatVersion`. -/
def batchFormatVersion : UInt8 := 0x02

/-- `batchFlagZstd`. -/
def batchFlagZstd : UInt8 := 0x01

/-- The decoder's memory limit, `zstd.WithDecoderMaxMemory(8<<20)`. -/
def decoderMaxMemory : ℕ := 8 <<< 20

/-- `zstdEnc.EncodeAll` and `zstdDec.DecodeAll` with a nil destination. -/
structure Zstd where
  encodeAll : Bytes → Bytes
  decodeAll : Bytes → Except String Bytes

/-- Decoding inverts encoding on strings of at most `limit` bytes. -/
def Zstd.Inverts (z : Zstd) (limit : ℕ) : Prop :=
  ∀ x, x.length ≤ limit → z.decodeAll (z.encodeAll x) = .ok x

/-- `frameBatch`: packets as length-prefixed records.  The length is converted to `uint16`, so it
is written modulo `2^16`. -/
def frameBatch (pkts : List Bytes) : Bytes :=
  pkts.foldl (fun out p => out ++ putUint16 (UInt16.ofNat p.length) ++ p) []

/-- The capacity `frameBatch` computes, `2 + len(p)` summed over the packets. -/
def framedSize (pkts : List Bytes) : ℕ :=
  (pkts.map fun p => 2 + p.length).sum

/-- `encodeBatch`: the frame, compressed when that shrinks it. -/
def encodeBatch (z : Zstd) (pkts : List Bytes) : Bytes :=
  let framed := frameBatch pkts
  let compressed := z.encodeAll framed
  if compressed.length < framed.length then
    batchFormatVersion :: batchFlagZstd :: compressed
  else
    batchFormatVersion :: 0 :: framed

/-- A byte as `%02x` prints it. -/
def hexByte (b : UInt8) : String :=
  String.ofList [Nat.digitChar (b.toNat / 16), Nat.digitChar (b.toNat % 16)]

/-- The record loop of `decodeBatch`: `framed` is what is left to read, `pkts` the packets read
so far. -/
def decodeRecords (framed : Bytes) (pkts : List Bytes) : Except String (List Bytes) :=
  match framed with
  | [] => .ok pkts
  | [_] => .error "truncated length prefix"
  | hi :: lo :: rest =>
    let n := (beUint16 hi lo).toNat
    if rest.length < n then
      .error s!"truncated packet: need {n}, have {rest.length}"
    else
      decodeRecords (rest.drop n) (pkts ++ [rest.take n])
  termination_by framed.length
  decreasing_by
    rw [List.length_drop, List.length_cons, List.length_cons]
    omega

/-- `decodeBatch`. -/
def decodeBatch (z : Zstd) (data : Bytes) : Except String (List Bytes) :=
  match data with
  | version :: flags :: payload =>
    if version ≠ batchFormatVersion then
      .error s!"unknown batch version 0x{hexByte version}"
    else if flags &&& batchFlagZstd ≠ 0 then
      match z.decodeAll payload with
      | .error err => .error s!"zstd decode: {err}"
      | .ok framed => decodeRecords framed []
    else
      decodeRecords payload []
  | _ => .error s!"batch frame too short: {data.length} bytes"

end OpenFlux.Transport
