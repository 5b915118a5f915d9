import OpenFlux.Main.Encryption
import OpenFlux.Main.Flags

/-!
# From the flags to the encryption layer (`main.go`)

The settings of a process, read off its flags as the switches over `--role` and `--transport` read
them.
-/

namespace OpenFlux.Main

/-- The value as it is written. -/
def Role.name : Role → Bytes
  | .client => roleClient
  | .exit => roleExit
  | .benchSend => roleBenchSend
  | .benchSink => roleBenchSink

/-- The cases of the switch over `--role`. -/
def Role.entries : List Role := [.client, .exit, .benchSend, .benchSink]

/-- The cases of the switch over `--transport`, with `auto`, which is resolved before it. -/
def TransportType.entries : List TransportType :=
  [.auto, .vyandex, .yandex, .oneme, .cupsonline, .mailru]

/-- The settings of a process with these options whose key file holds `keyText`; another role or
transport ends the process. -/
def Options.settings (o : Options) (keyText : Bytes) : Option Settings := do
  let role ← Role.entries.find? (·.name = o.role)
  let transportType ←
    TransportType.entries.find? (·.name = o.flags.string (literal "transport"))
  some {
    role, transportType
    url :=
      if literal "url" ∈ o.flags.actual then some (o.flags.string (literal "url")) else none
    encryptionKey := keyText }

end OpenFlux.Main
