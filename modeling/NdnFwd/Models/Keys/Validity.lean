import NdnFwd.Models.Keys.Keygen

/-!
# How long a new certificate is valid

`keygen` adds the validity to the current time and saturates, but the validity is a product of
`u64` that does not: in a build with overflow checks it panics, when the key is already in the
base, and without them it wraps around. Here `keygen` is followed in both.
-/

namespace NdnFwd.Sec

section Keygen

variable (checks : Bool)

/-- `validity_ns`; `none` is an overflow panic. -/
def validityNs (days : UInt64) : Option Nat :=
  Word.product 64 checks days.toNat [24, 3600, 1000000000]

/-- The certificate that is stored for a new key. -/
def makeCert (certName : Name) (pk : Bytes) (keyType : KeyType) (days now : UInt64) :
    Option Certificate := do
  let validity ← validityNs checks days
  some ⟨certName, pk, now.toNat, Word.saturatingAdd 64 now.toNat validity, keyType⟩

/-- How an invocation ends. -/
inductive Ending
  | returned (result : Except SecError Unit)
  /-- An overflow panic. -/
  | panicked

/-- `cmd_keygen`, in a build with or without overflow checks. -/
def cmdKeygenIn {π : Type*} (lib : PacketLib) (f : FilePib π) (name : Name) (keyType : KeyType)
    (makeAnchor : Bool) (days : UInt64) (skipIfExists : Bool) (keyId now : UInt64) (p : π) :
    π × Ending :=
  if skipIfExists ∧ (findCertName f p name).isSome then (p, .returned (.ok ()))
  else
    let certName := buildCertName lib keyId name
    match f.generate keyType certName p with
    | none => (p, .returned (.error .pib))
    | some (p, pk) =>
      match makeCert checks certName pk keyType days now with
      | none => (p, .panicked)
      | some cert =>
        match f.storeCert certName cert p with
        | none => (p, .returned (.error .pib))
        | some p =>
          if makeAnchor then
            ((addAnchor f certName cert p).1, .returned (addAnchor f certName cert p).2)
          else (p, .returned (.ok ()))

end Keygen

/-- The validity in nanoseconds, as many days as given. -/
def daysNs (days : UInt64) : Nat := days.toNat * (86400 * 1000000000)

/-- The certificate of a new key expires after the days given, or at the largest time there is. It
does not expire before it is valid, fewer days do not make it last longer, and on the way to it
nothing overflows or panics. -/
structure ValidFor {π : Type*} (lib : PacketLib) (f : FilePib π) (checks : Bool)
    (days now : UInt64) : Prop where
  noOverflow : (validityNs true days).isSome = true
  expires : ∀ certName pk keyType, ∃ cert,
    makeCert checks certName pk keyType days now = some cert ∧ cert.validFrom = now.toNat ∧
      cert.validUntil = min (now.toNat + daysNs days) (2 ^ 64 - 1)
  ordered : ∀ certName pk keyType, ∀ cert ∈ makeCert checks certName pk keyType days now,
    cert.validFrom ≤ cert.validUntil
  monotone : ∀ certName pk keyType, ∀ cert ∈ makeCert checks certName pk keyType days now,
    ∀ fewer ≤ days, ∀ cert' ∈ makeCert checks certName pk keyType fewer now,
      cert'.validUntil ≤ cert.validUntil
  returns : ∀ name keyType makeAnchor skipIfExists keyId p,
    (cmdKeygenIn checks lib f name keyType makeAnchor days skipIfExists keyId now p).2 ≠ .panicked

section Arithmetic

variable {days fewer : UInt64}

private theorem daysNs_mono (h : fewer ≤ days) : daysNs fewer ≤ daysNs days :=
  Nat.mul_le_mul_right _ (UInt64.le_iff_toNat_le.mp h)

/-- The product, if it fits. -/
theorem validityNs_of_lt (checks : Bool) (h : daysNs days < 2 ^ 64) :
    validityNs checks days = some (daysNs days) :=
  Word.product_of_lt checks (by decide) h

/-- With overflow checks, the product must fit. -/
theorem daysNs_lt_of_isSome (h : (validityNs true days).isSome = true) : daysNs days < 2 ^ 64 := by
  obtain ⟨n, hn⟩ := Option.isSome_iff_exists.mp h
  obtain ⟨hdays, hlt⟩ := (Word.product_checked_eq_some_iff days.toNat_lt (by decide)).mp hn
  rw [← hdays] at hlt
  exact hlt

private theorem makeCert_of_lt (checks : Bool) (h : daysNs days < 2 ^ 64) (certName : Name)
    (pk : Bytes)
    (keyType : KeyType) (now : UInt64) :
    makeCert checks certName pk keyType days now = some ⟨certName, pk, now.toNat,
      min (now.toNat + daysNs days) (2 ^ 64 - 1), keyType⟩ := by
  rw [makeCert, validityNs_of_lt checks h]
  rfl

private theorem makeCert_wrapping (certName : Name) (pk : Bytes) (keyType : KeyType)
    (days now : UInt64) : makeCert false certName pk keyType days now =
      some (newCert certName pk keyType days.toNat now) := by
  rw [makeCert, validityNs, Word.product_wrapping days.toNat_lt, newCert, Nat.mul_assoc,
    Nat.mul_assoc]
  rfl

end Arithmetic

section Endings

variable {π : Type*} {lib : PacketLib} {f : FilePib π} {checks : Bool} {days now : UInt64}

/-- A panic can only come of the product. -/
theorem cmdKeygenIn_ne_panicked (h : daysNs days < 2 ^ 64) (name : Name) (keyType : KeyType)
    (makeAnchor skipIfExists : Bool) (keyId : UInt64) (p : π) :
    (cmdKeygenIn checks lib f name keyType makeAnchor days skipIfExists keyId now p).2 ≠
      .panicked := by
  rw [cmdKeygenIn]
  by_cases hskip : skipIfExists = true ∧ (findCertName f p name).isSome = true
  · rw [if_pos hskip]
    nofun
  · rw [if_neg hskip]
    dsimp only
    cases f.generate keyType (buildCertName lib keyId name) p with
    | none => nofun
    | some r =>
      simp only [makeCert_of_lt checks h]
      cases f.storeCert (buildCertName lib keyId name) _ r.1 with
      | none => nofun
      | some p => cases makeAnchor <;> nofun

/-- Without overflow checks, an invocation is one of `cmdKeygen`. -/
theorem cmdKeygenIn_wrapping (lib : PacketLib) (f : FilePib π) (name : Name) (keyType : KeyType)
    (makeAnchor : Bool) (days : UInt64) (skipIfExists : Bool) (keyId now : UInt64) (p : π) :
    cmdKeygenIn false lib f name keyType makeAnchor days skipIfExists keyId now p =
      ((cmdKeygen lib f name keyType makeAnchor days.toNat skipIfExists keyId now p).1,
        .returned
          (cmdKeygen lib f name keyType makeAnchor days.toNat skipIfExists keyId now p).2) := by
  rw [cmdKeygenIn, cmdKeygen]
  by_cases hskip : skipIfExists = true ∧ (findCertName f p name).isSome = true
  · rw [if_pos hskip, if_pos hskip]
  · rw [if_neg hskip, if_neg hskip]
    dsimp only
    cases f.generate keyType (buildCertName lib keyId name) p with
    | none => rfl
    | some r =>
      simp only [makeCert_wrapping, newCert]
      cases f.storeCert (buildCertName lib keyId name) _ r.1 with
      | none => rfl
      | some p => cases makeAnchor <;> rfl

/-- A new certificate is valid for the days given exactly if they are few enough for their
nanoseconds to be a `u64`. -/
theorem validFor_iff (lib : PacketLib) (f : FilePib π) (checks : Bool) (days now : UInt64) :
    ValidFor lib f checks days now ↔ days.toNat * (86400 * 1000000000) < 2 ^ 64 := by
  constructor
  · intro h
    exact daysNs_lt_of_isSome h.noOverflow
  · intro h
    have hcert := fun certName pk keyType => makeCert_of_lt checks h certName pk keyType now
    constructor
    · rw [validityNs_of_lt true h]
      rfl
    · intro certName pk keyType
      exact ⟨_, hcert certName pk keyType, rfl, rfl⟩
    · intro certName pk keyType cert hmem
      rw [hcert, Option.mem_some_iff] at hmem
      subst hmem
      exact le_min (Nat.le_add_right _ _) (Nat.le_sub_one_of_lt now.toNat_lt)
    · intro certName pk keyType cert hmem fewer hfewer cert' hmem'
      have hle := daysNs_mono hfewer
      rw [hcert, Option.mem_some_iff] at hmem
      rw [makeCert_of_lt checks (hle.trans_lt h), Option.mem_some_iff] at hmem'
      subst hmem hmem'
      exact min_le_min_right _ (Nat.add_le_add_left hle _)
    · exact cmdKeygenIn_ne_panicked h

/-- One day more than there is room for. With overflow checks the key is left without a
certificate, and without them the certificate expires within half an hour. -/
theorem tooManyDays_not_validFor :
    (∀ checks, ¬ValidFor .conventions memoryPib checks 213504 0) ∧
      cmdKeygenIn true .conventions memoryPib router .ed25519 true 213504 false 1 0
          memoryPib.create = (⟨[buildCertName .conventions 1 router], [], []⟩, .panicked) ∧
        ∃ cert, makeCert false (buildCertName .conventions 1 router) [] .ed25519 213504 0 =
          some cert ∧ cert.validUntil = 1526290448384 := by
  refine ⟨fun checks h => ?_, by rfl, _, rfl, by decide⟩
  exact absurd h.noOverflow (by decide)

end Endings

end NdnFwd.Sec
