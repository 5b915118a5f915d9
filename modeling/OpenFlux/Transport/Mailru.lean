import OpenFlux.Go.Strings
import OpenFlux.Transport.Docs

/-!
# The Mail.ru transport (`transport/mailru/mailru.go`)

The address of the document, and what is done with the messages of its web socket.
-/

namespace OpenFlux.Transport.Mailru

/-- The beginnings `normalizeWeblink` cuts off, the longer ones first. -/
def publicURLs : List Bytes :=
  [literal "https://cloud.mail.ru/public/", literal "http://cloud.mail.ru/public/",
    literal "https://cloud.mail.ru/", literal "http://cloud.mail.ru/"]

/-- `normalizeWeblink`. -/
def normalizeWeblink (weblink : Bytes) : Bytes :=
  let weblink := trimSpace weblink
  match publicURLs.find? (·.isPrefixOf weblink) with
  | some pre => trim (trimPrefix weblink pre) 0x2F
  | none => weblink

example : normalizeWeblink (literal "https://cloud.mail.ru/public/AbCdEfGh1/IjKlMnOp2") =
    normalizeWeblink (literal "AbCdEfGh1/IjKlMnOp2") := by
  decide

/-- `handleMessage`. -/
def handleMessage (text : Bytes) : Docs.Handled :=
  if contains text (literal "---KA---") then .ignored
  else if text = literal "2" then .pong
  else if text = literal "3" then .ignored
  else if contains text (literal "\"type\":\"auth\"") ∧ contains text (literal "\"result\":1") then
    .ignored
  else if contains text (literal "cursor") then Docs.receiveBase64 (Docs.cursorPayload text)
  else .ignored

end OpenFlux.Transport.Mailru
