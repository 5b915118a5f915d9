import OpenFlux.Transport.Encrypted

/-!
# The encryption settings (`main.go`)

The flags that decide how `main` builds the encryption layer, and what it passes to
`NewEncryptedTransport`: the contents of the key file, trimmed, and the URL as it stands on the
command line, with the name of the transport for an empty one.
-/

namespace OpenFlux.Main

open Transport Transport.Encrypted

/-- The values of `--role`. -/
inductive Role
  | client
  | exit
  | benchSend
  | benchSink
  deriving DecidableEq

/-- The values of `--transport`. -/
inductive TransportType
  | auto
  | yandex
  | vyandex
  | oneme
  | cupsonline
  | mailru
  deriving DecidableEq

/-- The value as it is written. -/
def TransportType.name : TransportType → Bytes
  | .auto => literal "auto"
  | .yandex => literal "yandex"
  | .vyandex => literal "vyandex"
  | .oneme => literal "oneme"
  | .cupsonline => literal "cupsonline"
  | .mailru => literal "mailru"

/-- The flags of a process started with `--encryption-key-file`, and what the file holds. -/
structure Settings where
  role : Role
  transportType : TransportType
  -- `--url`, when it is given
  url : Option Bytes
  encryptionKey : Bytes

/-- The default of `--url`. -/
def defaultDocUrl : Bytes := literal "http://#"

/-- `globalDocUrl` after `flag.Parse`. -/
def Settings.globalDocUrl (s : Settings) : Bytes := s.url.getD defaultDocUrl

/-- The context of the key derivation. -/
def Settings.context (s : Settings) : Bytes :=
  if s.globalDocUrl ≠ [] then s.globalDocUrl else s.transportType.name

/-- The call of `NewEncryptedTransport`.  The transport wrapped is never nil. -/
def Settings.encryptedTransport (c : Crypto) (s : Settings) : Except String EncryptedTransport :=
  newEncryptedTransport c (some ()) (trimSpace s.encryptionKey) s.context (s.role = .exit)

end OpenFlux.Main
