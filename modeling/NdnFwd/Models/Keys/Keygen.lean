import NdnFwd.Models.Keys.Anchors

/-!
# Generating a key once

`keygen` makes a key, stores a certificate for it and may add the certificate to the anchors, one
after the other. With `--skip-if-exists` it does none of this for an identity that has a key. A
run that was interrupted between these writes is therefore never completed by a later one.
-/

namespace NdnFwd.Sec

/-- What is documented of the three writes of `keygen`: the listing shows every generated key,
with or without a certificate, a stored certificate can be read, an added anchor is listed, and
none of them takes away what the others have written. -/
structure FilePib.KeygenLaws {π : Type*} (f : FilePib π) : Prop where
  listed : ∀ keyType n p p' pk, f.generate keyType n p = some (p', pk) → n ∈ f.listKeys p'
  listKeys_storeCert : ∀ n c p p', f.storeCert n c p = some p' →
    ∀ k ∈ f.listKeys p, k ∈ f.listKeys p'
  getCert_storeCert : ∀ c p p', f.storeCert c.name c p = some p' → f.getCert c.name p' = some c
  listKeys_addTrustAnchor : ∀ n c p p', f.addTrustAnchor n c p = some p' →
    ∀ k ∈ f.listKeys p, k ∈ f.listKeys p'
  getCert_addTrustAnchor : ∀ n c p p', f.addTrustAnchor n c p = some p' →
    ∀ k, f.getCert k p' = f.getCert k p
  anchored : ∀ n c p p', f.addTrustAnchor n c p = some p' → n ∈ f.listAnchors p'

section Keygen

variable {π : Type*} (lib : PacketLib) (f : FilePib π)

/-- The base that an invocation works on. -/
def base (s : Option π) : π := s.getD f.create

/-- The certificate of a new key. -/
def newCert (certName : Name) (pk : Bytes) (keyType : KeyType) (days : Nat) (now : UInt64) :
    Certificate :=
  ⟨certName, pk, now.toNat, min (now.toNat + days * 24 * 3600 * 1000000000 % 2 ^ 64) (2 ^ 64 - 1),
    keyType⟩

/-- Where a `keygen` that does not skip may have left the base when it was interrupted. -/
inductive Interrupted (identity : Name) (keyType : KeyType) (days : Nat) (keyId now : UInt64)
    (s : Option π) : Option π → Prop
  | created : Interrupted identity keyType days keyId now s (some (base f s))
  /-- After the key was generated. -/
  | generated {p : π} {pk : Bytes}
      (hkey : f.generate keyType (buildCertName lib keyId identity) (base f s) = some (p, pk)) :
      Interrupted identity keyType days keyId now s (some p)
  /-- After the certificate was stored. -/
  | stored {p p' : π} {pk : Bytes}
      (hkey : f.generate keyType (buildCertName lib keyId identity) (base f s) = some (p, pk))
      (hcert : f.storeCert (buildCertName lib keyId identity)
        (newCert (buildCertName lib keyId identity) pk keyType days now) p = some p') :
      Interrupted identity keyType days keyId now s (some p')

/-- The base lists a key for the identity. -/
def HasKey (p : π) (identity : Name) : Prop := ∃ k ∈ f.listKeys p, keyPrefix identity <+: k

/-- It lists one that has a stored certificate which is an anchor. -/
def HasAnchoredKey (p : π) (identity : Name) : Prop :=
  ∃ k ∈ f.listKeys p, keyPrefix identity <+: k ∧ (f.getCert k p).isSome = true ∧
    k ∈ f.listAnchors p

/-- `keygen --skip-if-exists --anchor` leaves an anchored key whenever it succeeds. -/
def Repairs (s : Option π) (identity : Name) (keyType : KeyType) (days : Nat)
    (keyId now : UInt64) : Prop :=
  let r := runCommand lib f s (.keygen identity keyType true days true keyId now)
  r.2 = .ok () → HasAnchoredKey f (base f r.1) identity

variable {lib f} {identity : Name} {keyType : KeyType} {days : Nat} {keyId now : UInt64}

/-- A key is found if there is one. -/
theorem findCertName_isSome_iff {p : π} :
    (findCertName f p identity).isSome = true ↔ HasKey f p identity := by
  simp [findCertName, HasKey]

private theorem keyPrefix_buildCertName : keyPrefix identity <+: buildCertName lib keyId identity :=
  List.prefix_append _ _

/-- What comes of a `keygen` that does not skip. -/
inductive Written (lib : PacketLib) (f : FilePib π) (certName : Name) (keyType : KeyType)
    (anchor : Bool) (days : Nat) (now : UInt64) (p : π) : π × Except SecError Unit → Prop
  | noKey : Written lib f certName keyType anchor days now p (p, .error .pib)
  | noCert {p₁ : π} {pk : Bytes} (hkey : f.generate keyType certName p = some (p₁, pk)) :
      Written lib f certName keyType anchor days now p (p₁, .error .pib)
  | plain {p₁ p₂ : π} {pk : Bytes} (hanchor : anchor = false)
      (hkey : f.generate keyType certName p = some (p₁, pk))
      (hcert : f.storeCert certName (newCert certName pk keyType days now) p₁ = some p₂) :
      Written lib f certName keyType anchor days now p (p₂, .ok ())
  | noAnchor {p₁ p₂ : π} {pk : Bytes}
      (hkey : f.generate keyType certName p = some (p₁, pk))
      (hcert : f.storeCert certName (newCert certName pk keyType days now) p₁ = some p₂) :
      Written lib f certName keyType anchor days now p (p₂, .error .pib)
  | anchored {p₁ p₂ p₃ : π} {pk : Bytes}
      (hkey : f.generate keyType certName p = some (p₁, pk))
      (hcert : f.storeCert certName (newCert certName pk keyType days now) p₁ = some p₂)
      (hadd : f.addTrustAnchor certName (newCert certName pk keyType days now) p₂ = some p₃) :
      Written lib f certName keyType anchor days now p (p₃, .ok ())

private theorem cmdKeygen_eq {anchor skip : Bool} {p : π}
    (h : ¬(skip = true ∧ (findCertName f p identity).isSome = true)) :
    cmdKeygen lib f identity keyType anchor days skip keyId now p =
      match f.generate keyType (buildCertName lib keyId identity) p with
      | none => (p, .error .pib)
      | some (p, pk) =>
        match f.storeCert (buildCertName lib keyId identity)
          (newCert (buildCertName lib keyId identity) pk keyType days now) p with
        | none => (p, .error .pib)
        | some p =>
          if anchor then
            addAnchor f (buildCertName lib keyId identity)
              (newCert (buildCertName lib keyId identity) pk keyType days now) p
          else (p, .ok ()) := by
  rw [cmdKeygen, if_neg h]
  rfl

private theorem written_cmdKeygen {anchor skip : Bool} {p : π}
    (h : ¬(skip = true ∧ HasKey f p identity)) :
    Written lib f (buildCertName lib keyId identity) keyType anchor days now p
      (cmdKeygen lib f identity keyType anchor days skip keyId now p) := by
  rw [← findCertName_isSome_iff] at h
  rw [cmdKeygen_eq h]
  cases hkey : f.generate keyType (buildCertName lib keyId identity) p with
  | none => exact .noKey
  | some r =>
    obtain ⟨p₁, pk⟩ := r
    dsimp only
    cases hcert : f.storeCert (buildCertName lib keyId identity)
        (newCert (buildCertName lib keyId identity) pk keyType days now) p₁ with
    | none => exact .noCert hkey
    | some p₂ =>
      cases anchor with
      | false => exact .plain rfl hkey hcert
      | true =>
        dsimp only [addAnchor]
        rw [if_pos rfl]
        cases hadd : f.addTrustAnchor (buildCertName lib keyId identity)
            (newCert (buildCertName lib keyId identity) pk keyType days now) p₂ with
        | none => exact .noAnchor hkey hcert
        | some p₃ => exact .anchored hkey hcert hadd

private theorem keygen_eq {s : Option π} {anchor skip : Bool} :
    runCommand lib f s (.keygen identity keyType anchor days skip keyId now) =
      (some (cmdKeygen lib f identity keyType anchor days skip keyId now (base f s)).1,
        (cmdKeygen lib f identity keyType anchor days skip keyId now (base f s)).2) := rfl

/-- With a key for the identity nothing is done. -/
theorem cmdKeygen_of_hasKey {anchor : Bool} {p : π} (h : HasKey f p identity) :
    cmdKeygen lib f identity keyType anchor days true keyId now p = (p, .ok ()) := by
  rw [cmdKeygen, if_pos ⟨rfl, findCertName_isSome_iff.mpr h⟩]

/-- A `keygen` that fails was interrupted. -/
theorem interrupted_of_error {s : Option π} {anchor skip : Bool} {e : SecError}
    (h : (runCommand lib f s (.keygen identity keyType anchor days skip keyId now)).2 = .error e) :
    Interrupted lib f identity keyType days keyId now s
      (runCommand lib f s (.keygen identity keyType anchor days skip keyId now)).1 := by
  rw [keygen_eq] at h ⊢
  by_cases hskip : skip = true ∧ HasKey f (base f s) identity
  · obtain ⟨rfl, hkey⟩ := hskip
    rw [cmdKeygen_of_hasKey hkey] at h
    cases h
  · have hwritten : Written lib f (buildCertName lib keyId identity) keyType anchor days now
        (base f s) (cmdKeygen lib f identity keyType anchor days skip keyId now (base f s)) :=
      written_cmdKeygen hskip
    generalize cmdKeygen lib f identity keyType anchor days skip keyId now (base f s) = r
      at h hwritten ⊢
    cases hwritten with
    | noKey => exact .created
    | noCert hkey => exact .generated hkey
    | noAnchor hkey hcert => exact .stored hkey hcert
    | plain | anchored => cases h

/-- Without a key, a success leaves an anchored key. -/
theorem Written.hasAnchoredKey (hf : f.KeygenLaws) {p : π} {r : π × Except SecError Unit}
    (h : Written lib f (buildCertName lib keyId identity) keyType true days now p r)
    (hok : r.2 = .ok ()) : HasAnchoredKey f r.1 identity := by
  cases h with
  | noKey | noCert | noAnchor => cases hok
  | plain hanchor => cases hanchor
  | anchored hkey hcert hadd =>
    have hlisted := hf.listed _ _ _ _ _ hkey
    refine ⟨buildCertName lib keyId identity, ?_, keyPrefix_buildCertName, ?_, ?_⟩
    · exact hf.listKeys_addTrustAnchor _ _ _ _ hadd _
        (hf.listKeys_storeCert _ _ _ _ hcert _ hlisted)
    · have hstored : f.getCert (buildCertName lib keyId identity) _ = some _ :=
        hf.getCert_storeCert (newCert _ _ keyType days now) _ _ hcert
      rw [hf.getCert_addTrustAnchor _ _ _ _ hadd, hstored]
      rfl
    · exact hf.anchored _ _ _ _ hadd

/-- `keygen --skip-if-exists --anchor` changes nothing for an identity that has a key. It leaves
an anchored key exactly if there was none before, or an anchored one. -/
theorem keygen_repairs_iff (lib : PacketLib) (f : FilePib π) (hf : f.KeygenLaws) (s : Option π)
    (identity : Name) (keyType : KeyType) (days : Nat) (keyId now : UInt64) :
    (HasKey f (base f s) identity →
        runCommand lib f s (.keygen identity keyType true days true keyId now) =
          (some (base f s), .ok ())) ∧
      (Repairs lib f s identity keyType days keyId now ↔
        (HasKey f (base f s) identity → HasAnchoredKey f (base f s) identity)) := by
  have hskip : HasKey f (base f s) identity →
      runCommand lib f s (.keygen identity keyType true days true keyId now) =
        (some (base f s), .ok ()) := by
    intro hkey
    rw [keygen_eq, cmdKeygen_of_hasKey hkey]
  refine ⟨hskip, ?_⟩
  constructor
  · intro hrepairs hkey
    rw [Repairs, hskip hkey] at hrepairs
    exact hrepairs rfl
  · intro h hok
    by_cases hkey : HasKey f (base f s) identity
    · rw [hskip hkey]
      exact h hkey
    · refine (written_cmdKeygen ?_).hasAnchoredKey hf hok
      exact fun hand => hkey hand.2

end Keygen

section Memory

/-- A base in memory does what is documented of writes. -/
theorem memoryPib_keygenLaws : memoryPib.KeygenLaws where
  listed keyType n p p' pk h := by
    obtain ⟨rfl, -⟩ := Prod.mk.inj (Option.some.inj h)
    exact List.mem_append_right _ (List.mem_singleton_self n)
  listKeys_storeCert n c p p' h k hk := by
    obtain rfl := Option.some.inj h
    exact hk
  getCert_storeCert c p p' h := by
    obtain rfl := Option.some.inj h
    simp [memoryPib]
  listKeys_addTrustAnchor n c p p' h k hk := by
    obtain rfl := Option.some.inj h
    exact hk
  getCert_addTrustAnchor n c p p' h k := by
    obtain rfl := Option.some.inj h
    rfl
  anchored n c p p' h := by
    obtain rfl := Option.some.inj h
    exact List.mem_append_right _ (List.mem_singleton_self n)

/-- The base after a run that was not interrupted. -/
def anchoredPib : MemoryPib :=
  ⟨[buildCertName .conventions 1 router],
    [newCert (buildCertName .conventions 1 router) [] .ed25519 365 0],
    [buildCertName .conventions 1 router]⟩

/-- A first run makes an anchored key, and a second one leaves everything as it is. -/
theorem router_repaired :
    Repairs .conventions memoryPib none router .ed25519 365 1 0 ∧
      runCommand .conventions memoryPib (some anchoredPib)
          (.keygen router .ed25519 true 365 true 2 1) = (some anchoredPib, .ok ()) ∧
      Repairs .conventions memoryPib (some anchoredPib) router .ed25519 365 2 1 := by
  have hkey : HasKey memoryPib (base memoryPib (some anchoredPib)) router :=
    ⟨_, List.mem_singleton_self _, keyPrefix_buildCertName⟩
  have hanchored : HasAnchoredKey memoryPib (base memoryPib (some anchoredPib)) router := by
    refine ⟨_, List.mem_singleton_self _, keyPrefix_buildCertName, ?_, List.mem_singleton_self _⟩
    simp [base, memoryPib, anchoredPib, newCert]
  have hfirst := keygen_repairs_iff .conventions memoryPib memoryPib_keygenLaws none router
    .ed25519 365 1 0
  have hsecond := keygen_repairs_iff .conventions memoryPib memoryPib_keygenLaws (some anchoredPib)
    router .ed25519 365 2 1
  refine ⟨hfirst.2.mpr ?_, hsecond.1 hkey, hsecond.2.mpr fun _ => hanchored⟩
  rintro ⟨_, hk, _⟩
  exact absurd hk List.not_mem_nil

/-- The base after a run that was interrupted when it had generated the key. -/
def generatedPib : MemoryPib := ⟨[buildCertName .conventions 1 router], [], []⟩

/-- The base after one that was interrupted when it had stored the certificate. -/
def storedPib : MemoryPib :=
  ⟨[buildCertName .conventions 1 router],
    [newCert (buildCertName .conventions 1 router) [] .ed25519 365 0], []⟩

/-- A later run completes neither. -/
theorem router_not_repaired :
    (Interrupted .conventions memoryPib router .ed25519 365 1 0 none (some generatedPib) ∧
        ¬Repairs .conventions memoryPib (some generatedPib) router .ed25519 365 2 1) ∧
      Interrupted .conventions memoryPib router .ed25519 365 1 0 none (some storedPib) ∧
        ¬Repairs .conventions memoryPib (some storedPib) router .ed25519 365 2 1 := by
  refine ⟨⟨.generated rfl, fun h => ?_⟩, .stored rfl rfl, fun h => ?_⟩
  · obtain ⟨k, -, -, -, hk⟩ := h (by decide)
    exact absurd hk List.not_mem_nil
  · obtain ⟨k, -, -, -, hk⟩ := h (by decide)
    exact absurd hk List.not_mem_nil

end Memory

end NdnFwd.Sec
