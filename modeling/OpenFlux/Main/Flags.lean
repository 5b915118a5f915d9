import OpenFlux.Go.Flag

/-!
# The command line (`main.go`)

`main` as far as the role switch: the single-letter aliases, the flags with their defaults, the
deprecated flags and the platform's defaults.  A process that does not get to the switch is the code
it exits with: 0 or 2 from the flag package, 1 from `log.Fatalf`.
-/

namespace OpenFlux.Main

open OpenFlux.Flag

/-- The `aliases` of `expandShortFlags`. -/
def aliases : List (Bytes × Bytes) :=
  [(literal "-r", literal "--role"), (literal "-i", literal "--inbound"),
    (literal "-t", literal "--transport"), (literal "-m", literal "--mode"),
    (literal "-c", literal "--codec"), (literal "-u", literal "--url"),
    (literal "-s", literal "--socks5"), (literal "-l", literal "--local-ip"),
    (literal "-d", literal "--debug")]

/-- The argument is the alias, bare or with a value after `=`. -/
def usesAlias (a short : Bytes) : Bool := a == short || (short ++ [0x3D]).isPrefixOf a

/-- `expandShortFlags` of one argument. -/
def expandShortFlag (a : Bytes) : Bytes :=
  match aliases.find? fun entry => usesAlias a entry.1 with
  | some (short, long) => long ++ a.drop short.length
  | none => a

/-- `expandShortFlags`. -/
def expandShortFlags (args : List Bytes) : List Bytes := args.map expandShortFlag

def roleClient : Bytes := literal "client"

def roleExit : Bytes := literal "exit"

def roleBenchSend : Bytes := literal "bench-send"

def roleBenchSink : Bytes := literal "bench-sink"

def inboundTUN : Bytes := literal "tun"

def inboundSOCKS5 : Bytes := literal "socks5"

def codecBatched : Bytes := literal "batched"

def codecLegacy : Bytes := literal "legacy"

/-- The flags of `main` with their defaults. -/
def definitions : List (Bytes × Value) :=
  [(literal "role", .string roleClient), (literal "inbound", .string []),
    (literal "transport", .string (literal "auto")), (literal "mode", .string []),
    (literal "codec", .string codecBatched), (literal "encryption-key-file", .string []),
    (literal "url", .string (literal "http://#")), (literal "maxToken", .string []),
    (literal "maxUid", .string []), (literal "socks5", .string (literal ":1080")),
    (literal "local-ip", .string []), (literal "bench-bytes", .int 0),
    (literal "bench-compressible", .bool false), (literal "debug", .bool false),
    (literal "client", .bool false), (literal "exit-node", .bool false),
    (literal "tun", .bool false), (literal "socks5-mode", .bool false),
    (literal "legacy", .bool false), (literal "bench-send", .int 0),
    (literal "bench-sink", .bool false)]

/-- `flag.CommandLine` before `flag.Parse`. -/
def commandLine : FlagSet := .define definitions

/-- What `main` goes on with: the variables it has changed since `flag.Parse`, and the flags. -/
structure Options where
  role : Bytes
  inbound : Bytes
  mode : Bytes
  codec : Bytes
  benchBytes : ℤ
  flags : FlagSet

/-- The role after the deprecated flags that are mapped to it. -/
def mapRole (f : FlagSet) : Bytes :=
  let role := f.string (literal "role")
  let role :=
    if literal "role" ∈ f.actual then role
    else
      let role := if f.bool (literal "client") then roleClient else role
      if f.bool (literal "exit-node") then roleExit else role
  let role := if 0 < f.int (literal "bench-send") then roleBenchSend else role
  if f.bool (literal "bench-sink") then roleBenchSink else role

/-- The inbound after the deprecated flags and the platform's default; `darwin` is
`runtime.GOOS == "darwin"`. -/
def mapInbound (darwin : Bool) (f : FlagSet) : Bytes :=
  let inbound := f.string (literal "inbound")
  let inbound := if f.bool (literal "tun") then inboundTUN else inbound
  let inbound := if f.bool (literal "socks5-mode") then inboundSOCKS5 else inbound
  if inbound = [] then if darwin then inboundTUN else inboundSOCKS5 else inbound

/-- The mapping of `main`, with the platform's defaults. -/
def mapFlags (darwin : Bool) (f : FlagSet) : Options where
  role := mapRole f
  inbound := mapInbound darwin f
  mode := if f.string (literal "mode") = [] then literal "l3" else f.string (literal "mode")
  codec := if f.bool (literal "legacy") then codecLegacy else f.string (literal "codec")
  benchBytes :=
    if 0 < f.int (literal "bench-send") then f.int (literal "bench-send")
    else f.int (literal "bench-bytes")
  flags := f

/-- The flag `--codec` has one of its values. -/
def knownCodec (o : Options) : Prop := o.codec = codecBatched ∨ o.codec = codecLegacy

instance (o : Options) : Decidable (knownCodec o) := inferInstanceAs (Decidable (_ ∨ _))

/-- `main` up to the role switch, or the code it exits with. -/
def reachSwitch (darwin : Bool) (args : List Bytes) : Except ℕ Options :=
  match parse commandLine (expandShortFlags args) with
  | .error code => .error code
  | .ok f => if knownCodec (mapFlags darwin f) then .ok (mapFlags darwin f) else .error 1

end OpenFlux.Main
