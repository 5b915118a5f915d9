import OpenFlux.Go.Base64
import OpenFlux.Go.Scan

/-!
# The details of an incoming call (`transport/oneme/max_call_helper.go`)

The `vcp` of an incoming call is three characters with the size of the details, one more that is
not looked at, and the details, compressed and in base64.  `lz4.UncompressBlock` is a parameter: a
function from a block and a destination to the number of bytes written and the destination
afterwards, with `none` for an error.
-/

namespace OpenFlux.Transport.Oneme

/-- An error of `decodeCallDetails`: its own, "vcp too short", or one of the decoders'. -/
inductive DetailsError
  | tooShort
  | base64
  | lz4
  deriving DecidableEq

/-- `size`, which is 0 where the scan fails. -/
def detailsSize (vcp : Bytes) : ℤ := (scanInt (vcp.take 3)).getD 0

/-- `decodeCallDetails`, with `none` for a panic. -/
def decodeCallDetails (uncompressBlock : Bytes → Bytes → Option (ℕ × Bytes)) (vcp : Bytes) :
    Option (Except DetailsError Bytes) :=
  if vcp.length < 4 then some (.error .tooShort)
  else
    match Base64.decode stdEncoding (vcp.drop 4) with
    | none => some (.error .base64)
    | some decoded =>
      -- `make` panics at a negative size
      if detailsSize vcp < 0 then none
      else
        match uncompressBlock decoded (List.replicate (detailsSize vcp).toNat 0) with
        | none => some (.error .lz4)
        | some (n, decompressed) =>
          if n ≤ decompressed.length then some (.ok (decompressed.take n)) else none

end OpenFlux.Transport.Oneme
