import NdnFwd.Models.Keys.Provenance

/-!
# Whom the forwarder trusts

At startup the forwarder builds up to three validators: for management commands, for registrations
from the neighbourhood and for service records. Each has the trust anchors of one key base that the
configuration names, and the certificate of the demo authority joins those of the second. A base
that cannot be read or has no anchors ends the startup. It can also end on other things, before and
after: what follows is about the set-up of the validators alone.
-/

namespace NdnFwd.Trust

open Sec (Certificate FilePib)

/-- A validator that accepts whatever is signed under an anchor. -/
structure Validator where
  anchors : List Certificate
  /-- Whether it shares the certificates that the demo authority issues. -/
  sharesIssued : Bool
  deriving DecidableEq

/-- `Validator::new(TrustSchema::accept_all())`. -/
def Validator.acceptAll : Validator := ⟨[], false⟩

/-- `add_trust_anchor`. -/
def Validator.addTrustAnchor (v : Validator) (cert : Certificate) : Validator :=
  { v with anchors := v.anchors ++ [cert] }

/-- What the startup finds: the key bases at their paths, and how names and keys of the demo
authority turn out. -/
structure Host (π : Type*) where
  pib : String → Option π
  /-- Why there is none. -/
  openError : String → String
  /-- `trust_anchors()`. -/
  trustAnchors : π → Except String (List Certificate)
  parseName : String → Option Name
  /-- `KeyChain::ephemeral`, with the self-signed certificate of its key. -/
  ephemeral : String → Option (Option Certificate)

/-- `[demo_ca]`. -/
structure DemoCaConfig where
  enabled : Bool
  caPrefix : String
  identity : String
  deriving DecidableEq, Repr

section Load

variable {π : Type*} (host : Host π)

end Load

section Loaded

variable {π : Type*} {host : Host π} {texts : LoadTexts} {path : Option String}
  {v : Option Validator}

/-- The base at a path can be read, and has these anchors. -/
def Reads (host : Host π) (path : String) (certs : List Certificate) : Prop :=
  ∃ pib, host.pib path = some pib ∧ host.trustAnchors pib = .ok certs ∧ certs ≠ []

end Loaded

section Started

variable {π : Type*} {host : Host π} {cfg : TrustConfig} {v : Validators}

end Started

section Trusted

variable {π : Type*} (lib : PacketLib) (f : FilePib π) (history : String → List Sec.Command)

/-- In the history of a base, the name has been anchored and not been removed again. -/
def Anchored (path : String) (a : Name) : Prop :=
  (Sec.sec lib f).SetLast (Sec.Marks lib f a) (Sec.Unmarks lib f a) none (history path)

variable {lib f history} {host : Host π} {texts : LoadTexts} {path : Option String}
  {v : Option Validator}

variable {cfg : TrustConfig}

end Trusted

end NdnFwd.Trust
