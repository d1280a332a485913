import NdnFwd.Core.Machine
import NdnFwd.Core.Word
import Mathlib.Logic.Function.Basic

/-!
# The on-disk certificate cache and its callers

One domain has a certificate file and a key file. `store` writes the one and then
the other, in place; a write can stop halfway, fail, or be cut off with the whole
program. `load` reads the one and then the other. Loads, resolves and renewals
interleave freely; stores follow one another.
-/

namespace NdnFwd.Acme

/-- A certificate chain and its private key, as issued by one order. -/
structure CertMaterial where
  /-- Certificate chain, PEM. -/
  certChainPem : Bytes
  /-- Private key, PEM. -/
  privateKeyPem : Bytes
  deriving DecidableEq, Repr

/-- A file that is written in place. -/
structure File where
  /-- Its bytes, if it exists. -/
  content : Option Bytes
  /-- The store that completed the last write, unless another write has begun since. -/
  source : Option Nat
  deriving DecidableEq, Repr

/-- Who called `CertCache::load`. -/
inductive Caller
  /-- A plain call. -/
  | load
  /-- `CertSource::resolve`, ACME case. -/
  | resolve
  /-- One iteration of `renewal_loop`. -/
  | renewal
  deriving DecidableEq, Repr

/-- A suspended caller. -/
inductive Task
  /-- `load` has read the certificate file and will read the key file. -/
  | reading (caller : Caller) (cert : Bytes) (source : Option Nat)
  /-- The caller has ordered a certificate from the CA. -/
  | ordering (caller : Caller)
  deriving DecidableEq, Repr

/-- The write a store is at. -/
inductive Stage
  /-- `fs::write` of the certificate file. -/
  | cert
  /-- `fs::write` of the key file. -/
  | key
  deriving DecidableEq, Repr

/-- A `CertCache::store` call under way. -/
structure StoreCall where
  /-- Position among all stores begun. -/
  number : Nat
  /-- What it stores. -/
  mat : CertMaterial
  /-- The write it is at. -/
  stage : Stage
  /-- Whether `resolve` waits for it. -/
  resolving : Bool
  deriving DecidableEq, Repr

/-- The cache directory, the calls under way, and the material of every store begun. -/
structure State where
  /-- `<domain>.cert.pem`. -/
  cert : File
  /-- `<domain>.key.pem`. -/
  key : File
  /-- The store under way. -/
  store : Option StoreCall
  /-- The suspended callers. -/
  tasks : Nat → Option Task
  /-- What each store so far was given, oldest first. -/
  stores : List CertMaterial

/-- What a caller gets back. An error of `resolve` has no material. -/
inductive Outcome
  /-- `load` returned. -/
  | loaded (material : Option CertMaterial)
  /-- `resolve` returned. -/
  | resolved (material : Option CertMaterial)
  deriving DecidableEq, Repr

/-- The material a caller got. -/
def Outcome.material : Outcome → Option CertMaterial
  | .loaded m => m
  | .resolved m => m

/-- What happens next. -/
inductive Event
  /-- A new caller begins a load and reads the certificate file. -/
  | call (id : Nat) (caller : Caller)
  /-- A load reads the key file; the clock is for `needs_renewal`. -/
  | readKey (id : Nat) (now : Int)
  /-- The CA answered an order. -/
  | issued (id : Nat) (material : Option CertMaterial)
  /-- A plain call of `store`. -/
  | storeCall (mat : CertMaterial)
  /-- The store at work has written the first `n` bytes of its file. -/
  | progress (n : Nat)
  /-- The store at work has completed its file. -/
  | written
  /-- The write of the store at work returned an error. -/
  | failed
  /-- The program is killed and started again. -/
  | killed

/-- The certificate parser: `notAfter` of the leaf, in seconds. -/
structure Pki where
  /-- `leaf_not_after_unix`. -/
  leafNotAfterUnix : Bytes → Option Int

section Step

variable (pki : Pki)

/-- `check_expiry_days`. -/
def checkExpiryDays (now : Int) (certPem : Bytes) : Option Int :=
  (pki.leafNotAfterUnix certPem).map fun notAfter => (notAfter - now).tdiv 86400

/-- `needs_renewal`. -/
def needsRenewal (now : Int) (certPem : Bytes) : Bool :=
  ((checkExpiryDays pki now certPem).map fun d => decide (d ≤ 30)).getD true

/-- Remove a caller. -/
def State.leave (s : State) (id : Nat) : State :=
  { s with tasks := Function.update s.tasks id none }

/-- Suspend a caller. -/
def State.suspend (s : State) (id : Nat) (t : Task) : State :=
  { s with tasks := Function.update s.tasks id (some t) }

/-- What the caller does with the result of its load. -/
def finishLoad (now : Int) (id : Nat) (loaded : Option CertMaterial) (s : State) :
    Caller → State × List Outcome
  | .load => (s.leave id, [.loaded loaded])
  | .resolve =>
    match loaded with
    | some mat =>
      if needsRenewal pki now mat.certChainPem then (s.suspend id (.ordering .resolve), [])
      else (s.leave id, [.resolved (some mat)])
    | none => (s.suspend id (.ordering .resolve), [])
  | .renewal =>
    let stale := (loaded.map fun mat => needsRenewal pki now mat.certChainPem).getD true
    if stale then (s.suspend id (.ordering .renewal), []) else (s.leave id, [])

/-- Begin a store. -/
def State.beginStore (s : State) (mat : CertMaterial) (resolving : Bool) : State :=
  { s with
    store := some ⟨s.stores.length, mat, .cert, resolving⟩
    stores := s.stores ++ [mat] }

/-- The answer of the CA. An order without a certificate ends the caller. -/
def State.issued (s : State) (id : Nat) (material : Option CertMaterial) :
    Caller → State × List Outcome
  | .load => (s, [])
  | .resolve =>
    match material with
    | some mat => ((s.leave id).beginStore mat true, [])
    | none => (s.leave id, [.resolved none])
  | .renewal =>
    match material with
    | some mat => ((s.leave id).beginStore mat false, [])
    | none => (s.leave id, [])

/-- The file the store is at holds some of its bytes. -/
def State.progress (s : State) (n : Nat) (c : StoreCall) : State :=
  match c.stage with
  | .cert => { s with cert := ⟨some (c.mat.certChainPem.take n), none⟩ }
  | .key => { s with key := ⟨some (c.mat.privateKeyPem.take n), none⟩ }

/-- The file the store is at is complete. After the key file the store returns. -/
def State.written (s : State) (c : StoreCall) : State × List Outcome :=
  match c.stage with
  | .cert =>
    ({ s with
        cert := ⟨some c.mat.certChainPem, some c.number⟩
        store := some { c with stage := .key } }, [])
  | .key =>
    ({ s with key := ⟨some c.mat.privateKeyPem, some c.number⟩, store := none },
      if c.resolving then [.resolved (some c.mat)] else [])

/-- `CertCache` on one domain, with its callers. -/
def cache : Machine State Event Outcome where
  step s e :=
    match e with
    | .call id caller =>
      match s.tasks id with
      | some _ => (s, [])
      | none =>
        match s.cert.content with
        | none => finishLoad pki 0 id none s caller
        | some cert => (s.suspend id (.reading caller cert s.cert.source), [])
    | .readKey id now =>
      match s.tasks id with
      | some (.reading caller cert _) =>
        finishLoad pki now id (s.key.content.map fun key => ⟨cert, key⟩) s caller
      | _ => (s, [])
    | .issued id material =>
      match s.tasks id, s.store with
      | some (.ordering caller), none => s.issued id material caller
      | _, _ => (s, [])
    | .storeCall mat =>
      match s.store with
      | none => (s.beginStore mat false, [])
      | some _ => (s, [])
    | .progress n =>
      match s.store with
      | some c => (s.progress n c, [])
      | none => (s, [])
    | .written =>
      match s.store with
      | some c => s.written c
      | none => (s, [])
    | .failed =>
      match s.store with
      | some c => ({ s with store := none }, if c.resolving then [.resolved none] else [])
      | none => (s, [])
    | .killed => ({ s with store := none, tasks := fun _ => none }, [])

/-- An empty cache directory. -/
def State.empty : State := ⟨⟨none, none⟩, ⟨none, none⟩, none, fun _ => none, []⟩

end Step

end NdnFwd.Acme
