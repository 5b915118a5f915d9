import OpenFlux.Go.Bytes

/-!
# The legacy codec (`transport/compressor.go`)

Each packet is sent by itself behind a marker byte: as it is behind a zero, or as an LZ4 frame when
that is shorter.  What does not decompress is handed up as it came.

The LZ4 library is a parameter (`Lz4`).  What the code relies on is `Lz4.Inverts`, the frame reader
inverts the writer.
-/

namespace OpenFlux.Transport

/-- `MinCompressSize`. -/
def minCompressSize : ℕ := 200

/-- `CompressionMarker`. -/
def compressionMarker : UInt8 := 0x1F

/-- What an `lz4.NewWriter` writes for one `Write` and `Close`, and `io.ReadAll` of an
`lz4.NewReader`. -/
structure Lz4 where
  write : Bytes → Bytes
  readAll : Bytes → Except String Bytes

/-- The frame reader inverts the writer. -/
def Lz4.Inverts (z : Lz4) : Prop := ∀ x, z.readAll (z.write x) = .ok x

/-- `compress`. -/
def compress (z : Lz4) (data : Bytes) : Bytes :=
  if data.length ≤ minCompressSize then 0x00 :: data
  else
    let buf := compressionMarker :: z.write data
    if data.length + 1 ≤ buf.length then 0x00 :: data else buf

/-- `decompress`. -/
def decompress (z : Lz4) (data : Bytes) : Except String Bytes :=
  match data with
  | [] => .ok []
  | marker :: rest => if marker = 0x00 then .ok rest else z.readAll rest

/-- What the callback that `CompressedTransport.Receive` registers hands up. -/
def receiveCompressed (z : Lz4) (data : Bytes) : Bytes :=
  match decompress z data with
  | .error _ => data
  | .ok decompressed => decompressed

end OpenFlux.Transport
