import NdnFwd.Core.Utf8
import NdnFwd.Models.Packet.Name

/-!
# The key name in a certificate name

A certificate is named by its identity, the marker `KEY`, and three more components. The witness
tool looks for the marker from the front. An identity may contain it too, and then the tool takes a
shorter name for that of the key.
-/

namespace NdnFwd.Witness

/-- The marker. -/
def keyComponent : NameComponent := .generic (asBytes "KEY")

/-- Why there is no key name. -/
inductive KeyNameError
  /-- `certificate name {cert_name} has no KEY component`. -/
  | noKeyComponent (certName : Name)
  /-- `certificate name {cert_name} has no key-id after KEY`. -/
  | noKeyId (certName : Name)
  deriving DecidableEq, Repr

/-- `build_cert_name`. -/
def buildCertName (lib : PacketLib) (identity : Name) : Name :=
  identity ++ [keyComponent, .generic (asBytes "rs-safebag"), .generic (asBytes "self"),
    lib.version 0]

/-- `key_idx`, the place of the first marker. -/
def keyIdx (certName : Name) : Option Nat :=
  certName.findIdx? fun c => c.typ = 0x08 ∧ c.value = asBytes "KEY"

/-- `key_name_from_cert_name`. -/
def keyNameFromCertName (certName : Name) : Except KeyNameError Name :=
  match keyIdx certName with
  | none => .error (.noKeyComponent certName)
  | some keyIdx =>
    if certName.length ≤ keyIdx + 1 then .error (.noKeyId certName)
    else .ok (certName.take (keyIdx + 2))

/-- The key name is recovered from every certificate name of the identity, the tool's own one
included. -/
structure RecoversKeyName (lib : PacketLib) (identity : Name) : Prop where
  built : keyNameFromCertName (buildCertName lib identity) =
    .ok (identity ++ [keyComponent, .generic (asBytes "rs-safebag")])
  named : ∀ keyId issuer version,
    keyNameFromCertName (identity ++ [keyComponent, keyId, issuer, version]) =
      .ok (identity ++ [keyComponent, keyId])

section Search

private theorem eq_keyComponent_iff (c : NameComponent) :
    c.typ = 0x08 ∧ c.value = asBytes "KEY" ↔ c = keyComponent := by
  cases c
  simp [keyComponent, NameComponent.generic]

/-- The marker behind the identity is found, or one in it. -/
theorem exists_keyIdx (identity : Name) (rest : List NameComponent) :
    ∃ i ≤ identity.length, keyIdx (identity ++ keyComponent :: rest) = some i ∧
      (i = identity.length ↔ keyComponent ∉ identity) := by
  simp only [keyIdx, eq_keyComponent_iff]
  induction identity with
  | nil => exact ⟨0, Nat.le_refl 0, by simp [List.findIdx?_cons], by simp⟩
  | cons c identity ih =>
    by_cases hc : c = keyComponent
    · exact ⟨0, Nat.zero_le _, by simp [List.findIdx?_cons, hc], by simp [hc]⟩
    · obtain ⟨i, hle, hfound, hiff⟩ := ih
      refine ⟨i + 1, Nat.succ_le_succ hle, ?_, ?_⟩
      · rw [List.cons_append, List.findIdx?_cons, hfound, if_neg (by simpa using hc)]
        rfl
      · rw [List.length_cons, Nat.add_right_cancel_iff, hiff, List.mem_cons, not_or,
          and_iff_right (Ne.symm hc)]

/-- What is taken for the key name is a beginning of the certificate name, and the right one
exactly if the identity has no marker. -/
theorem keyNameFromCertName_iff (identity : Name) (keyId : NameComponent)
    (rest : List NameComponent) :
    keyNameFromCertName (identity ++ keyComponent :: keyId :: rest) =
      .ok (identity ++ [keyComponent, keyId]) ↔ keyComponent ∉ identity := by
  obtain ⟨i, hle, hfound, hiff⟩ := exists_keyIdx identity (keyId :: rest)
  have hlong : ¬(identity ++ keyComponent :: keyId :: rest).length ≤ i + 1 := by
    simp only [List.length_append, List.length_cons]
    omega
  have hname : keyNameFromCertName (identity ++ keyComponent :: keyId :: rest) =
      .ok ((identity ++ keyComponent :: keyId :: rest).take (i + 2)) := by
    rw [keyNameFromCertName, hfound]
    exact if_neg hlong
  rw [hname, ← hiff]
  constructor
  · intro h
    have hlen := congrArg List.length (Except.ok.inj h)
    simp only [List.length_take, List.length_append, List.length_cons, List.length_nil] at hlen
    omega
  · rintro rfl
    rw [List.take_length_add_append]
    rfl

/-- So it is for the tool's own certificate name, and for any other. -/
theorem recoversKeyName_iff (lib : PacketLib) (identity : Name) :
    RecoversKeyName lib identity ↔ keyComponent ∉ identity := by
  constructor
  · intro h
    exact (keyNameFromCertName_iff identity _ _).mp h.built
  · intro h
    exact ⟨(keyNameFromCertName_iff identity _ _).mpr h,
      fun keyId issuer version => (keyNameFromCertName_iff identity keyId _).mpr h⟩

/-- The identity `/a/KEY/b`: the key name is taken to be `/a/KEY/b`. -/
theorem keyInIdentity_not_recovers :
    keyNameFromCertName (buildCertName .conventions
        [.generic (asBytes "a"), keyComponent, .generic (asBytes "b")]) =
      .ok [.generic (asBytes "a"), keyComponent, .generic (asBytes "b")] ∧
    ¬RecoversKeyName .conventions
      [.generic (asBytes "a"), keyComponent, .generic (asBytes "b")] := by
  refine ⟨by decide, fun h => ?_⟩
  exact absurd h.built (by decide)

end Search

end NdnFwd.Witness
