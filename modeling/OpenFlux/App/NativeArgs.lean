import OpenFlux.App.Strings

/-!
# The client's command line (`NativeArgs.kt`)

`build` puts the app's own flags first and drops from the stored payload the flags that the app
owns.  `redact` is the command line as the log shows it.
-/

namespace OpenFlux.App.NativeArgs

/-- `OWNED_WITH_VALUE`. -/
def ownedWithValue : List Bytes :=
  [literal "role", literal "r", literal "inbound", literal "i", literal "socks5", literal "s",
    literal "encryption-key-file"]

/-- `OWNED_BOOLEAN`. -/
def ownedBoolean : List Bytes :=
  [literal "client", literal "exit-node", literal "tun", literal "socks5-mode"]

/-- `flagName` of an argument. -/
def flagName (arg : Bytes) : Option Bytes :=
  if Kotlin.startsWith arg [0x2D] then
    some (Kotlin.substringBefore (Kotlin.trimStart arg 0x2D) 0x3D)
  else none

/-- The flag's name is in the set; an argument that is no flag has none. -/
def named (arg : Bytes) (names : List Bytes) : Bool := (flagName arg).any (· ∈ names)

/-- The loop of `build` over the payload. -/
def keep : List Bytes → List Bytes
  | [] => []
  | arg :: payload =>
    if named arg ownedBoolean then keep payload
    else if named arg ownedWithValue then
      if 0x3D ∈ arg then keep payload
      else
        match payload with
        | _ :: payload => keep payload
        | [] => []
    else arg :: keep payload

/-- The flags that the app sets itself. -/
def own (socksAddress : Bytes) (keyFile : Option Bytes) : List Bytes :=
  [literal "--role", literal "client", literal "--inbound", literal "socks5", literal "--socks5",
    socksAddress] ++
  match keyFile with
  | some keyFile => [literal "--encryption-key-file", keyFile]
  | none => []

/-- `build`. -/
def build (payload : List Bytes) (socksAddress : Bytes) (keyFile : Option Bytes) : List Bytes :=
  own socksAddress keyFile ++ keep payload

/-- `SECRET_VALUES`. -/
def secretValues : List Bytes := [literal "maxToken"]

/-- The loop of `redact`; `prev` is the argument before. -/
def redactFrom : Option Bytes → List Bytes → List Bytes
  | _, [] => []
  | prev, arg :: args =>
    (if named arg secretValues ∧ 0x3D ∈ arg then Kotlin.substringBefore arg 0x3D ++ literal "=***"
    else if prev.any (named · secretValues) then literal "***"
    else arg) :: redactFrom (some arg) args

/-- `redact`: what of a command line is logged. -/
def redact (args : List Bytes) : List Bytes := redactFrom none args

end OpenFlux.App.NativeArgs
