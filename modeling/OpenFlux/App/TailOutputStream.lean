import OpenFlux.Go.Bytes

/-!
# The end of what was written (`TailOutputStream` in `ServerInstallFragment.kt`)

The stream keeps the last bytes of what a command writes to its error output.  An `Int` is an
`Int32`, an exception `none`.  `lastWriteAt`, which no text depends on, is left out.
-/

namespace OpenFlux.App

/-- `array[index]`. -/
def arrayGet (array : Bytes) (index : Int32) : Option UInt8 :=
  if 0 ≤ index then array[index.toInt.toNat]? else none

/-- `array[index] = value`. -/
def arraySet (array : Bytes) (index : Int32) (value : UInt8) : Option Bytes :=
  if 0 ≤ index ∧ index.toInt < array.length then some (array.set index.toInt.toNat value) else none

structure TailOutputStream where
  capacity : Int32
  bytes : Bytes
  next : Int32 := 0
  size : Int32 := 0

namespace TailOutputStream

/-- The constructor. -/
def ofCapacity (capacity : Int32) : TailOutputStream where
  capacity := capacity
  bytes := List.replicate capacity.toInt.toNat 0

/-- `write` of one byte, the lowest of the value. -/
def write (s : TailOutputStream) (value : Int32) : Option TailOutputStream := do
  let bytes ← arraySet s.bytes s.next value.toInt8.toUInt8
  return { s with
    bytes
    next := (s.next + 1) % s.capacity
    size := if s.size < s.capacity then s.size + 1 else s.size }

/-- `value[index].toInt()`. -/
def valueAt (value : Bytes) (index : Int32) : Option Int32 :=
  (arrayGet value index).map fun b => b.toInt8.toInt32

/-- The loop over these indices: the stream after it, and whether it has come to its end. -/
def writeAll (value : Bytes) : List Int32 → TailOutputStream → TailOutputStream × Bool
  | [], s => (s, true)
  | index :: indices, s =>
    match (valueAt value index).bind s.write with
    | none => (s, false)
    | some s => writeAll value indices s

/-- `from until to`. -/
def untilRange (first last : Int32) : List Int32 :=
  (List.range (last.toInt - first.toInt).toNat).map fun i => first + Int32.ofNat i

/-- `write` of a part of an array. -/
def writeArray (s : TailOutputStream) (value : Bytes) (offset length : Int32) :
    TailOutputStream × Bool :=
  writeAll value (untilRange offset (offset + length)) s

/-- The array that `text` decodes. -/
def result (s : TailOutputStream) : Option Bytes :=
  let start := if s.size = s.capacity then s.next else 0
  (List.range s.size.toInt.toNat).mapM fun it =>
    arrayGet s.bytes ((start + Int32.ofNat it) % s.capacity)

/-! ### Sequences of writes -/

/-- A call of one of the two `write`s. -/
inductive Write
  | byte (value : Int32)
  | array (value : Bytes) (offset length : Int32)

/-- The stream after a call, which may end in an exception. -/
def after (s : TailOutputStream) : Write → TailOutputStream
  | .byte value => (s.write value).getD s
  | .array value offset length => (s.writeArray value offset length).1

end TailOutputStream

/-- The bytes that a call writes: those of an array up to the first index outside of it. -/
def TailOutputStream.Write.written : Write → Bytes
  | .byte value => [value.toInt8.toUInt8]
  | .array value offset length =>
    (((untilRange offset (offset + length)).map (arrayGet value)).takeWhile Option.isSome).reduceOption

end OpenFlux.App
