import OpenFlux.Algorithm.TextSearch
import OpenFlux.Go.Base64
import OpenFlux.Go.Strings

/-!
# Messages of the document transports

The Yandex Documents and the Mail.ru transport write the same messages, cursor positions with a
packet's base64 text in them, and read them with the same expression `cursorPayloadRe`.  Messages
are texts here, as the code puts them together and searches them.

The expression `"cursor":"[^;]+;([^"]+)"` has at most one match from a position: both character
classes end where the character that follows them is.
-/

namespace OpenFlux.Transport.Docs

open TextSearch

/-- The beginning of what `cursorPayloadRe` matches, `"cursor":"`. -/
def cursorMarker : Bytes := literal "\"cursor\":\""

/-- The submatch of `cursorPayloadRe` for a match at the start of the text. -/
def matchCursor (s : Bytes) : Option Bytes :=
  if cursorMarker.isPrefixOf s then
    let s := s.drop cursorMarker.length
    match s.takeWhile (· ≠ 0x3B), s.dropWhile (· ≠ 0x3B) with
    | _ :: _, _ :: s =>
      match s.takeWhile (· ≠ 0x22), s.dropWhile (· ≠ 0x22) with
      | c :: payload, _ :: _ => some (c :: payload)
      | _, _ => none
    | _, _ => none
  else none

/-- `cursorPayloadRe.FindStringSubmatch(response)[1]`, or the empty string without a match. -/
def cursorPayload (response : Bytes) : Bytes := (firstMatch matchCursor response).getD []

/-- The message with this text in the cursor. -/
def cursorMessage (payload : Bytes) : Bytes :=
  literal "42[\"message\",\x7b\"type\":\"cursor\",\"cursor\":\"18;" ++ payload ++ literal "\"\x7d]"

/-- The message that `writerLoop` writes for a packet. -/
def packetMessage (pending : Bytes) : Bytes := cursorMessage (Base64.encode stdEncoding pending)

/-- `keepAliveMsg`. -/
def keepAliveMsg : Bytes := cursorMessage (literal "---KA---")

/-- What `handleMessage` does with a message. -/
inductive Handled
  | ignored
  -- writes the pong `3`
  | pong
  -- calls the receive callback
  | received (data : Bytes)
  deriving DecidableEq

/-- The end of `handleMessage`. -/
def receiveBase64 (base64Str : Bytes) : Handled :=
  if base64Str = [] then .ignored
  else
    match Base64.decode stdEncoding base64Str with
    | none => .ignored
    | some decoded => .received decoded

end OpenFlux.Transport.Docs
