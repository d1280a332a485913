import NdnFwd.Core.Digits
import NdnFwd.Core.Machine
import NdnFwd.Core.Utf8
import NdnFwd.Models.Packet.Name

/-!
# The commands of the key tool

`keygen`, `import`, `delete` and the anchor commands over a public information base
that belongs to the security library. All commands but `keygen` and `import` resolve
an identity to one certificate name, through the listing of the key store.
-/

namespace NdnFwd.Sec

/-- Key algorithm. -/
inductive KeyType
  /-- Ed25519. -/
  | ed25519
  /-- ECDSA P-256. -/
  | ecdsa
  deriving DecidableEq, Repr

/-- The fields of a certificate that the tool sets. -/
structure Certificate where
  /-- Certificate name. -/
  name : Name
  /-- Public key, SPKI-wrapped. -/
  publicKey : Bytes
  /-- Start of validity, in nanoseconds. -/
  validFrom : Nat
  /-- End of validity, in nanoseconds. -/
  validUntil : Nat
  /-- Algorithm of the key. -/
  sigType : KeyType
  deriving DecidableEq, Repr

/-- The operations of the security library that the tool calls. `none` is an error. -/
structure FilePib (π : Type*) where
  /-- An empty base, as `FilePib::new` creates it. -/
  create : π
  /-- `generate_ed25519` and `generate_ecdsa_p256`: the new public key, SPKI-wrapped. -/
  generate : KeyType → Name → π → Option (π × Bytes)
  /-- `store_cert`. -/
  storeCert : Name → Certificate → π → Option π
  /-- `get_cert`. -/
  getCert : Name → π → Option Certificate
  /-- The certificate name inside a SafeBag, if it decodes. -/
  safebagCertName : Bytes → Option Name
  /-- `store_safebag`, with the passphrase. -/
  storeSafebag : Name → Bytes → Bytes → π → Option (π × Certificate)
  /-- `delete_key`. -/
  deleteKey : Name → π → Option π
  /-- `add_trust_anchor`. -/
  addTrustAnchor : Name → Certificate → π → Option π
  /-- `remove_trust_anchor`. -/
  removeTrustAnchor : Name → π → Option π
  /-- `list_keys`. -/
  listKeys : π → List Name
  /-- `list_anchors`. -/
  listAnchors : π → List Name

/-- What is documented of the anchor store: a stored anchor can be removed, and removing one
takes out that one only. Removing a name that is not stored may or may not be an error. -/
structure FilePib.AnchorLaws {π : Type*} (f : FilePib π) : Prop where
  /-- A stored anchor can be removed. -/
  removable : ∀ p n, n ∈ f.listAnchors p → (f.removeTrustAnchor n p).isSome
  /-- Only the named anchor goes. -/
  removes : ∀ p p' n, f.removeTrustAnchor n p = some p' →
    ∀ a, a ∈ f.listAnchors p' ↔ a ∈ f.listAnchors p ∧ a ≠ n

/-- Why a command failed. -/
inductive SecError
  /-- The base cannot be opened: `Run ndn-sec keygen <name> to create a PIB`. -/
  | noPib
  /-- `No key for <name>.` -/
  | noKey (name : Name)
  /-- `No certificate for <name>. Run ndn-sec keygen <name> first.` -/
  | noCertificate (name : Name)
  /-- The input is no SafeBag with a certificate. -/
  | badSafeBag
  /-- The base reported an error. -/
  | pib
  deriving DecidableEq, Repr

/-- A command line, with its names parsed and the clock readings it makes. -/
inductive Command
  /-- `keygen`. -/
  | keygen (name : Name) (keyType : KeyType) (anchor : Bool) (days : Nat) (skipIfExists : Bool)
    (keyId now : UInt64)
  /-- `import`. -/
  | importBag (wire password : Bytes) (anchor : Bool)
  /-- `delete`. -/
  | delete (name : Name)
  /-- `anchor add`. -/
  | anchorAdd (name : Name)
  /-- `anchor remove`. -/
  | anchorRemove (name : Name)
  deriving DecidableEq, Repr

section Commands

variable {π : Type*} (lib : PacketLib) (f : FilePib π)

/-- `identity.clone().append("KEY")`. -/
def keyPrefix (identity : Name) : Name := identity ++ [.generic (asBytes "KEY")]

/-- `build_cert_name`. -/
def buildCertName (keyId : UInt64) (identity : Name) : Name :=
  keyPrefix identity ++
    [.generic (Digits.hex16 keyId), .generic (asBytes "self"), lib.version 0]

/-- `find_cert_name`. -/
def findCertName (p : π) (identity : Name) : Option Name :=
  (f.listKeys p).find? fun k => (keyPrefix identity).isPrefixOf k

/-- `add_trust_anchor`, with its error passed on. -/
def addAnchor (certName : Name) (cert : Certificate) (p : π) : π × Except SecError Unit :=
  match f.addTrustAnchor certName cert p with
  | some p => (p, .ok ())
  | none => (p, .error .pib)

/-- `cmd_keygen`. -/
def cmdKeygen (name : Name) (keyType : KeyType) (makeAnchor : Bool) (days : Nat)
    (skipIfExists : Bool) (keyId now : UInt64) (p : π) : π × Except SecError Unit :=
  if skipIfExists ∧ (findCertName f p name).isSome then (p, .ok ())
  else
    let certName := buildCertName lib keyId name
    match f.generate keyType certName p with
    | none => (p, .error .pib)
    | some (p, pk) =>
      let validity := days * 24 * 3600 * 1000000000 % 2 ^ 64
      let cert : Certificate :=
        ⟨certName, pk, now.toNat, min (now.toNat + validity) (2 ^ 64 - 1), keyType⟩
      match f.storeCert certName cert p with
      | none => (p, .error .pib)
      | some p => if makeAnchor then addAnchor f certName cert p else (p, .ok ())

/-- `cmd_import`. -/
def cmdImport (wire password : Bytes) (makeAnchor : Bool) (p : π) : π × Except SecError Unit :=
  match f.safebagCertName wire with
  | none => (p, .error .badSafeBag)
  | some certName =>
    match f.storeSafebag certName wire password p with
    | none => (p, .error .pib)
    | some (p, stored) => if makeAnchor then addAnchor f certName stored p else (p, .ok ())

/-- `cmd_delete`. -/
def cmdDelete (name : Name) (p : π) : π × Except SecError Unit :=
  match findCertName f p name with
  | none => (p, .error (.noKey name))
  | some certName =>
    match f.deleteKey certName p with
    | some p => (p, .ok ())
    | none => (p, .error .pib)

/-- `cmd_anchor_add`. -/
def cmdAnchorAdd (name : Name) (p : π) : π × Except SecError Unit :=
  match findCertName f p name with
  | none => (p, .error (.noCertificate name))
  | some certName =>
    match f.getCert certName p with
    | none => (p, .error .pib)
    | some cert => addAnchor f certName cert p

/-- `cmd_anchor_remove`. -/
def cmdAnchorRemove (name : Name) (p : π) : π × Except SecError Unit :=
  match findCertName f p name with
  | none => (p, .error (.noKey name))
  | some certName =>
    match f.removeTrustAnchor certName p with
    | some p => (p, .ok ())
    | none => (p, .error .pib)

/-- A command that opens an existing base. -/
def opened (cmd : π → π × Except SecError Unit) : Option π → Option π × Except SecError Unit
  | some p => ((cmd p).1, (cmd p).2)
  | none => (none, .error .noPib)

/-- A command that creates the base if there is none. `import` does so only for a SafeBag that
decodes. -/
def created (cmd : π → π × Except SecError Unit) (p : Option π) : Option π × Except SecError Unit :=
  ((cmd (p.getD f.create)).1, (cmd (p.getD f.create)).2)

/-- One invocation of the tool. -/
def runCommand (p : Option π) : Command → Option π × Except SecError Unit
  | .keygen name keyType anchor days skip keyId now =>
    created f (cmdKeygen lib f name keyType anchor days skip keyId now) p
  | .importBag wire password anchor =>
    if (f.safebagCertName wire).isSome then created f (cmdImport f wire password anchor) p
    else (p, .error .badSafeBag)
  | .delete name => opened (cmdDelete f name) p
  | .anchorAdd name => opened (cmdAnchorAdd f name) p
  | .anchorRemove name => opened (cmdAnchorRemove f name) p

/-- The tool, invoked again and again on one base. -/
def sec : Machine (Option π) Command (Except SecError Unit) where
  step p cmd := ((runCommand lib f p cmd).1, [(runCommand lib f p cmd).2])

end Commands

end NdnFwd.Sec
