import OpenFlux.Go.Strings

/-!
# The Cups.online transport (`transport/cupsonline/cupsonline.go`)

The list of rooms that the exit prints and the client is given for its URL.
-/

namespace OpenFlux.Transport.Cupsonline

/-- The characters `authorize` takes into a room id: `[0-9a-f-]`. -/
def isRoomChar (b : UInt8) : Bool :=
  (0x30 ≤ b && b ≤ 0x39) || (0x61 ≤ b && b ≤ 0x66) || b == 0x2D

/-- The field `roomUUID` of `cupsAuth`, as `reDataRoomUUID` matches it. -/
structure RoomUUID where
  bytes : Bytes
  length_eq : bytes.length = 36
  chars : ∀ b ∈ bytes, isRoomChar b
  deriving DecidableEq

/-- The items of a JSON array. -/
def joinItems : List Bytes → Bytes
  | [] => []
  | [item] => item
  | item :: items => item ++ [0x2C] ++ joinItems items

/-- `json.Marshal` of strings that need no escapes. -/
def marshalStrings (ids : List Bytes) : Bytes :=
  [0x5B] ++ joinItems (ids.map fun id => [0x22] ++ id ++ [0x22]) ++ [0x5D]

/-- `packRooms`. -/
def packRooms (rooms : List RoomUUID) : Bytes :=
  encodeRawURL (marshalStrings (rooms.map RoomUUID.bytes))

end OpenFlux.Transport.Cupsonline
