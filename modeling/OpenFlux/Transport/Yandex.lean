import OpenFlux.Transport.Docs

/-!
# The Yandex Documents transport (`transport/yandex/yandex.go`)
-/

namespace OpenFlux.Transport.Yandex

open Docs

/-- `extractBase64String`. -/
def extractBase64String (response : Bytes) : Bytes :=
  if contains response (literal "saveChanges") then
    let marker := literal "\"excelAdditionalInfo\":\""
    match index response marker with
    | none => []
    | some i =>
      let left := i + marker.length
      match index (response.drop left) (literal "\"") with
      | none => []
      | some right => (response.take (left + right)).drop left
  else cursorPayload response

/-- `handleMessage`. -/
def handleMessage (text : Bytes) : Handled :=
  if contains text (literal "---KA---") then .ignored
  else if text = literal "2" then .pong
  else if text = literal "3" then .ignored
  else if contains text (literal "saveChanges") ∨ contains text (literal "cursor") then
    receiveBase64 (extractBase64String text)
  else .ignored

end OpenFlux.Transport.Yandex
