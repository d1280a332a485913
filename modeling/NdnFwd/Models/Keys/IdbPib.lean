import NdnFwd.Core.Listing
import NdnFwd.Core.Requests
import NdnFwd.Core.Relabel
import NdnFwd.Models.Packet.Name

/-!
# Keys kept by a browser

A browser keeps the SafeBags, their passphrases and the trust anchors in three object stores, all
three keyed by the URI of a name and all three holding bytes. Every request to a store may be
refused. A store lists its keys in the order of their UTF-16 code units, and the signer is made
from the SafeBag that comes first.
-/

namespace NdnFwd.IdbPib

/-- `SafeBagAlgorithm`. -/
inductive SafeBagAlgorithm
  | ed25519
  | ecdsaP256
  | other (oid : String)
  deriving DecidableEq, Repr

/-- What the packet and the security libraries offer, with their errors as texts. -/
structure Security (Bag Cert Signer : Type) where
  /-- `Name::to_string`. -/
  toString : Name → String
  /-- `Name::from_str`. -/
  parse : String → Option Name
  /-- `SafeBag::encode`. -/
  encode : Bag → Bytes
  /-- `SafeBag::decode`. -/
  decode : Bytes → Except String Bag
  /-- `SafeBag::algorithm`. -/
  algorithm : Bag → Bytes → Except String SafeBagAlgorithm
  /-- `SafeBag::decrypt_ed25519_seed`. -/
  decryptEd25519Seed : Bag → Bytes → Except String Bytes
  /-- `SafeBag::decrypt_pkcs8`. -/
  decryptPkcs8 : Bag → Bytes → Except String Bytes
  /-- `Ed25519Signer::from_seed`. -/
  fromSeed : Bytes → Name → Signer
  /-- `EcdsaP256Signer::from_pkcs8_der`. -/
  fromPkcs8Der : Bytes → Name → Except String Signer
  /-- `Data::decode`. -/
  decodeData : Bytes → Except String Data
  /-- `Certificate::decode`. -/
  decodeCertificate : Data → Except String Cert

/-- The object stores. -/
inductive Store
  | safebags
  | passphrases
  | anchors
  deriving DecidableEq, Repr

/-- The errors of a database that is open. -/
inductive IdbPibError
  /-- A request was refused, with the text of the exception. -/
  | request (text : String)
  | decode (text : String)
  deriving DecidableEq, Repr

/-- The content of the object stores. -/
abbrev IdbDatabase := Store → Table String Bytes

/-- `IdbDatabase` after an open that created its stores. -/
def created : IdbDatabase := fun _ => ∅

/-- A method of `IdbPib`. -/
abbrev Idb (α : Type) := Requests IdbDatabase String IdbPibError α

/-- The UTF-16 code units of a text. -/
def codeUnits (s : String) : List Nat :=
  s.toList.flatMap fun c =>
    if c.toNat < 0x10000 then [c.toNat]
    else [0xD800 + (c.toNat - 0x10000) / 0x400, 0xDC00 + (c.toNat - 0x10000) % 0x400]

/-- The order of string keys in an object store. -/
def keyLe (s s' : String) : Bool := lexLe (codeUnits s) (codeUnits s')

/-- `put_bytes`. -/
def putBytes (store : Store) (key : String) (value : Bytes) : Idb Unit :=
  Requests.request .request fun db =>
    ((), fun s => if s = store then (db s).insert key value else db s)

/-- `get_bytes`. -/
def getBytes (store : Store) (key : String) : Idb (Option Bytes) :=
  Requests.request .request fun db => ((db store).lookup key, db)

/-- `get_all_keys`. -/
def getAllKeys (store : Store) : Idb (List String) :=
  Requests.request .request fun db => ((db store).keys.mergeSort keyLe, db)

/-- The `clear` of one object store. -/
def clearStore (store : Store) : Idb Unit :=
  Requests.request .request fun db => ((), fun s => if s = store then ∅ else db s)

/-- A result of the libraries, its error told as one of the stored value. -/
def orDecode {α : Type} (what : String) : Except String α → Except IdbPibError α
  | .ok a => .ok a
  | .error e => .error (.decode (what ++ e))

section Methods

variable {Bag Cert Signer : Type} (lib : Security Bag Cert Signer)

/-- The keys of a store read as names, up to the first that is none. -/
def parseKeys : List String → Except IdbPibError (List Name)
  | [] => .ok []
  | s :: rest =>
    match lib.parse s with
    | none => .error (.decode ("unparsable name: " ++ s))
    | some name => (parseKeys rest).map (name :: ·)

/-- `list_store_keys`. -/
def listStoreKeys (store : Store) : Idb (List Name) := do
  let keys ← getAllKeys store
  Requests.ofExcept (parseKeys lib keys)

/-- `put_safebag`. -/
def putSafebag (name : Name) (bag : Bag) : Idb Unit :=
  putBytes .safebags (lib.toString name) (lib.encode bag)

/-- `get_safebag`. -/
def getSafebag (name : Name) : Idb (Option Bag) := do
  match ← getBytes .safebags (lib.toString name) with
  | some wire => Requests.ofExcept ((orDecode "safebag decode: " (lib.decode wire)).map some)
  | none => pure none

/-- `put_passphrase`. -/
def putPassphrase (name : Name) (pw : Bytes) : Idb Unit :=
  putBytes .passphrases (lib.toString name) pw

/-- `get_passphrase`. -/
def getPassphrase (name : Name) : Idb (Option Bytes) :=
  getBytes .passphrases (lib.toString name)

/-- `put_anchor`. -/
def putAnchor (name : Name) (wire : Bytes) : Idb Unit :=
  putBytes .anchors (lib.toString name) wire

/-- `get_anchor`. -/
def getAnchor (name : Name) : Idb (Option Bytes) := getBytes .anchors (lib.toString name)

/-- `list_anchors`. -/
def listAnchors : Idb (List Name) := listStoreKeys lib .anchors

/-- `list_safebags`. -/
def listSafebags : Idb (List Name) := listStoreKeys lib .safebags

/-- The error for a SafeBag without its passphrase. -/
def passphraseMissing (keyName : Name) : IdbPibError :=
  .decode ("safebag " ++ lib.toString keyName ++ " present but companion passphrase row missing")

/-- The signer in a SafeBag. -/
def signerOf (bag : Bag) (pw : Bytes) (keyName : Name) : Except IdbPibError Signer := do
  match ← orDecode "safebag algorithm probe: " (lib.algorithm bag pw) with
  | .ed25519 =>
    let seed ← orDecode "safebag decrypt: " (lib.decryptEd25519Seed bag pw)
    pure (lib.fromSeed seed keyName)
  | .ecdsaP256 =>
    let pkcs8 ← orDecode "safebag decrypt: " (lib.decryptPkcs8 bag pw)
    orDecode "ecdsa from_pkcs8: " (lib.fromPkcs8Der pkcs8 keyName)
  | .other oid =>
    .error (.decode ("safebag carries unsupported algorithm OID " ++ oid ++
      " (only Ed25519 / ECDSA-P256 wired today)"))

/-- `build_signer`. -/
def buildSigner : Idb (Option Signer) := do
  match ← listSafebags lib with
  | [] => pure none
  | keyName :: _ =>
    match ← getSafebag lib keyName with
    | none => pure none
    | some bag =>
      match ← getPassphrase lib keyName with
      | none => throw (passphraseMissing lib keyName)
      | some pw => Requests.ofExcept ((signerOf lib bag pw keyName).map some)

/-- The certificate in the wire of an anchor. -/
def anchorOf (name : Name) (wire : Bytes) : Except IdbPibError Cert := do
  let data ← orDecode ("anchor " ++ lib.toString name ++ " not a valid Data wire: ")
    (lib.decodeData wire)
  orDecode ("anchor " ++ lib.toString name ++ " not a valid Certificate: ")
    (lib.decodeCertificate data)

/-- The loop of `build_validator`. -/
def addTrustAnchors : List Name → Idb (List Cert)
  | [] => pure []
  | name :: rest => do
    match ← getAnchor lib name with
    | none => addTrustAnchors rest
    | some wire =>
      let cert ← Requests.ofExcept (anchorOf lib name wire)
      let certs ← addTrustAnchors rest
      pure (cert :: certs)

/-- `build_validator`: the anchors of the validator, in the order they are added. -/
def buildValidator : Idb (Option (List Cert)) := do
  match ← listAnchors lib with
  | [] => pure none
  | names => some <$> addTrustAnchors lib names

/-- `clear`. -/
def clear : Idb Unit := do
  clearStore .safebags
  clearStore .passphrases
  clearStore .anchors

/-- The calls of an application. -/
inductive Call (Bag : Type)
  | putSafebag (name : Name) (bag : Bag)
  | getSafebag (name : Name)
  | putPassphrase (name : Name) (pw : Bytes)
  | getPassphrase (name : Name)
  | putAnchor (name : Name) (wire : Bytes)
  | getAnchor (name : Name)
  | listAnchors
  | listSafebags
  | buildSigner
  | buildValidator
  | clear

/-- What a call returns. -/
inductive Answer (Bag Cert Signer : Type)
  | done
  | safebag (bag : Option Bag)
  | bytes (value : Option Bytes)
  | names (names : List Name)
  | signer (signer : Option Signer)
  | validator (anchors : Option (List Cert))

/-- One call. -/
def perform : Call Bag → Idb (Answer Bag Cert Signer)
  | .putSafebag name bag => do
    putSafebag lib name bag
    pure .done
  | .getSafebag name => .safebag <$> getSafebag lib name
  | .putPassphrase name pw => do
    putPassphrase lib name pw
    pure .done
  | .getPassphrase name => .bytes <$> getPassphrase lib name
  | .putAnchor name wire => do
    putAnchor lib name wire
    pure .done
  | .getAnchor name => .bytes <$> getAnchor lib name
  | .listAnchors => .names <$> listAnchors lib
  | .listSafebags => .names <$> listSafebags lib
  | .buildSigner => .signer <$> buildSigner lib
  | .buildValidator => .validator <$> buildValidator lib
  | .clear => do
    clear
    pure .done

/-- The calls of an application one after the other: their answers, and the database they leave. -/
def session (db : Served IdbDatabase String) :
    List (Call Bag) → List (Except IdbPibError (Answer Bag Cert Signer)) × Served IdbDatabase String
  | [] => ([], db)
  | call :: rest =>
    let (answer, db) := Requests.outcome (perform lib call db)
    let (answers, db) := session db rest
    (answer :: answers, db)

end Methods

end NdnFwd.IdbPib
