import NdnFwd.Core.Signing
import NdnFwd.Models.Packet.Name

/-!
# Signed packets

The signature fields of a Data packet. The signature types that the tools name have a
constructor each; every other number that a sender may write is kept as it is.
-/

namespace NdnFwd

/-- `SignatureType`. -/
inductive SignatureType
  | digestSha256
  | signatureSha256WithRsa
  | signatureSha256WithEcdsa
  | signatureEd25519
  | other (code : Nat)
  deriving DecidableEq, Repr

/-- What a SignatureInfo block says. -/
structure SigInfo where
  sigType : SignatureType
  /-- `key_locator_name`. -/
  keyLocatorName : Option Name
  deriving DecidableEq, Repr

/-- A Data packet, as far as its signature is concerned. -/
structure SignedData where
  name : Name
  sigInfo : Option SigInfo
  signedRegion : Bytes
  sigValue : Bytes
  deriving DecidableEq, Repr

/-- What the security library runs for a signature type, over encoded public keys. -/
abbrev SigSuite := Suite SignatureType Bytes Bytes Bytes

end NdnFwd
