import OpenFlux.Go.Bytes

/-!
# The lenient record loop

The receivers of the Volga and the Cups.online transport read the same records of two length bytes
and a packet, with the same loop: it ends at a zero length, at a record that is cut short and at
less than two bytes, without an error.
-/

namespace OpenFlux.Transport

/-- The number of bytes of a batch, less the headers. -/
def totalBytes (packets : List Bytes) : ℕ := (packets.map List.length).sum

/-- The loop: the packets read and what is left where it ends. -/
def readRecords (decoded : Bytes) : List Bytes × Bytes :=
  match decoded with
  | hi :: lo :: decoded =>
    let ln := (beUint16 hi lo).toNat
    if ln = 0 ∨ decoded.length < ln then ([], decoded)
    else
      let r := readRecords (decoded.drop ln)
      (decoded.take ln :: r.1, r.2)
  | decoded => ([], decoded)
  termination_by decoded.length
  decreasing_by
    rw [List.length_drop, List.length_cons, List.length_cons]
    omega

end OpenFlux.Transport
