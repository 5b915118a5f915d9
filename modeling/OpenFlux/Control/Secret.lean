import OpenFlux.Control.Disk

/-!
# The signing secret (`control/store.go`)

The file of the secret under any number of `Open` calls, with the stores they return and the bundles
that these issue.  `Open` uses the file of the secret in `loadSecret` only, and `Create` signs with
the secret of its store; the files of the users are left out.
-/

namespace OpenFlux.Control

structure Issuer where
  secretFile : Option Bytes
  -- the secrets of the stores that were opened
  stores : List Bytes := []
  -- the bundles that they issued
  issued : List Bytes := []

inductive IssuerEvent
  -- `Open`, with the error of its other read
  | openStore (env : SecretEnv) (usersErr : Option String)
  -- `Create` on the store at an index, with its id and profiles
  | create (i : ℕ) (idBytes : Bytes) (profiles : Option (List Profile))

namespace Issuer

variable (L : Libs)

def step (s : Issuer) : IssuerEvent → Option Issuer
  | .openStore env usersErr =>
    let (secretFile, loaded) := loadSecret s.secretFile env
    match loaded, usersErr with
    | .ok secret, none => some { s with secretFile, stores := s.stores ++ [secret] }
    | _, _ => some { s with secretFile }
  | .create i idBytes profiles =>
    match s.stores[i]? with
    | some secret => some { s with
        issued := s.issued ++
          [bundleToken L secret { version := 1, userID := hexEncode idBytes, profiles }] }
    | none => none

end Issuer

/-- Before the first `Open`. -/
def issuer (L : Libs) (secretFile : Option Bytes) : EventSystem Issuer IssuerEvent where
  init := { secretFile }
  step := Issuer.step L

end OpenFlux.Control
