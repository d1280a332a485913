import NdnFwd.Models.Keys.Response

/-!
# The verdict on a service record

`DiscoveryVerifier` polls the validator once. Whatever is not valid by then is untrusted;
a valid record is authentic unless it claims DigestSha256. Only authentic records may
change the FIB, so the flag has to be right for whatever the validator lets through.
-/

namespace NdnFwd.Discovery

/-- `std::task::Poll`. -/
inductive Poll (α : Type*)
  | ready (value : α)
  | pending
  deriving DecidableEq, Repr

/-- A future: what it answers to each poll in turn. -/
abbrev Future (α : Type*) := Nat → Poll α

/-- `poll_once`: the value, if the first poll has it. -/
def pollOnce {α : Type*} (fut : Future α) : Option α :=
  match fut 0 with
  | .ready v => some v
  | .pending => none

/-- `ValidationResult`. -/
inductive ValidationResult
  | valid
  | invalid
  | pending
  deriving DecidableEq, Repr

/-- `VerifyVerdict`. -/
inductive VerifyVerdict
  | verified (identity : Name) (authentic : Bool)
  | untrusted
  deriving DecidableEq, Repr

/-- `DiscoveryVerifier::verify`, over the validator. -/
def verify (validate : SignedData → Future ValidationResult) (data : SignedData) :
    VerifyVerdict :=
  let identity := data.sigInfo.bind SigInfo.keyLocatorName
  match pollOnce (validate data) with
  | some .valid =>
    let authentic := (data.sigInfo.map fun si => decide (si.sigType ≠ .digestSha256)).getD false
    .verified (identity.getD data.name) authentic
  | _ => .untrusted

section Gate

variable (suite : SigSuite) (validate : SignedData → Future ValidationResult) (data : SignedData)

/-- The validator finds the packet valid, and at the first poll. -/
def ValidAtOnce : Prop := validate data 0 = .ready .valid

/-- Only a packet that is valid at once and names an asymmetric algorithm is authentic, and
only one that is valid at once is trusted at all. -/
def GateSound : Prop :=
  (∀ identity, verify validate data = .verified identity true →
      ValidAtOnce validate data ∧
        ∃ info, data.sigInfo = some info ∧ Suite.Asymmetric suite info.sigType) ∧
    (¬ValidAtOnce validate data → verify validate data = .untrusted)

end Gate

variable {suite : SigSuite} {validate : SignedData → Future ValidationResult} {data : SignedData}

private theorem pollOnce_eq_some_iff {α : Type*} {fut : Future α} {v : α} :
    pollOnce fut = some v ↔ fut 0 = .ready v := by
  unfold pollOnce
  cases fut 0 <;> simp

/-- Without a valid result at the first poll the packet is untrusted. -/
theorem verify_of_not_valid (h : ¬ValidAtOnce validate data) :
    verify validate data = .untrusted := by
  have hpoll : pollOnce (validate data) ≠ some .valid := fun hv => h (pollOnce_eq_some_iff.mp hv)
  unfold verify
  cases hp : pollOnce (validate data) with
  | none => rfl
  | some result =>
    cases result with
    | valid => exact absurd hp hpoll
    | invalid | pending => rfl

/-- What an authentic verdict shows, and nothing else. -/
theorem verify_authentic_iff :
    (∃ identity, verify validate data = .verified identity true) ↔
      ValidAtOnce validate data ∧
        ∃ info, data.sigInfo = some info ∧ info.sigType ≠ .digestSha256 := by
  by_cases hvalid : ValidAtOnce validate data
  · have hpoll : pollOnce (validate data) = some .valid := pollOnce_eq_some_iff.mpr hvalid
    simp only [verify, hpoll, hvalid, true_and, VerifyVerdict.verified.injEq]
    cases data.sigInfo with
    | none => simp
    | some info => simp
  · rw [verify_of_not_valid hvalid]
    simp [hvalid]

/-- The gate is sound exactly when no packet that is valid at once claims an algorithm which is
neither DigestSha256 nor asymmetric. -/
theorem gateSound_iff (suite : SigSuite) (validate : SignedData → Future ValidationResult)
    (data : SignedData) :
    GateSound suite validate data ↔
      (ValidAtOnce validate data → ∀ info, data.sigInfo = some info →
        info.sigType = .digestSha256 ∨ Suite.Asymmetric suite info.sigType) := by
  constructor
  · rintro ⟨hauthentic, -⟩ hvalid info hinfo
    by_cases htype : info.sigType = .digestSha256
    · exact Or.inl htype
    · obtain ⟨identity, hverdict⟩ := verify_authentic_iff.mpr ⟨hvalid, info, hinfo, htype⟩
      obtain ⟨-, info', hinfo', hasym⟩ := hauthentic identity hverdict
      obtain rfl := Option.some.inj (hinfo.symm.trans hinfo')
      exact Or.inr hasym
  · intro hall
    refine ⟨fun identity hverdict => ?_, verify_of_not_valid⟩
    obtain ⟨hvalid, info, hinfo, htype⟩ := verify_authentic_iff.mp ⟨identity, hverdict⟩
    exact ⟨hvalid, info, hinfo, (hall hvalid info hinfo).resolve_left htype⟩

/-- A packet with a MAC is authentic as soon as the validator takes it for valid. -/
theorem hmacResponse_not_gateSound :
    ¬GateSound Response.hmacSuite (fun _ _ => .ready .valid) Response.hmacResponse := by
  rintro ⟨hauthentic, -⟩
  obtain ⟨-, info, hinfo, a, ha, hasym⟩ := hauthentic [⟨8, [0x6b]⟩] rfl
  obtain rfl := Option.some.inj hinfo
  obtain rfl := Option.some.inj ha
  exact hasym

end NdnFwd.Discovery
