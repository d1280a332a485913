import NdnFwd.Models.Packet.Signature

/-!
# Verifying a management response

`ndn-mgmt-response-verify` takes the key from a trust anchor and the algorithm from the
packet. The one algorithm it excludes is DigestSha256. For any other algorithm that needs
no secret, everyone who can read the anchor can make a response that passes.
-/

namespace NdnFwd.Response

/-- A trust anchor, with the signature type its certificate stores. -/
structure TrustAnchor where
  name : Name
  publicKey : Bytes
  sigType : SignatureType
  deriving DecidableEq, Repr

/-- What comes of `FilePib::open` and `trust_anchors`. -/
inductive PibRead
  | unopened
  | unreadable
  | anchors (certs : List TrustAnchor)
  deriving DecidableEq, Repr

/-- Why a response is refused. -/
inductive VerifyError
  /-- `response Data name {name} is not under {prefix}`. -/
  | dataNameNotUnder (name dataPrefix : Name)
  /-- `response Data lacks SignatureInfo`. -/
  | lacksSignatureInfo
  /-- `response Data used DigestSha256 instead of a key-backed signature`. -/
  | usedDigestSha256
  /-- `key-backed response Data lacks KeyLocator Name`. -/
  | lacksKeyLocatorName
  /-- `KeyLocator {name} is not under {prefix}`. -/
  | keyLocatorNotUnder (keyName keyPrefix : Name)
  /-- `open trust-anchor PIB {path}`. -/
  | openPib
  /-- `load PIB trust anchors`. -/
  | loadAnchors
  /-- `no PIB trust anchor matching KeyLocator {name}`. -/
  | noAnchorMatching (keyName : Name)
  /-- `verify response signature`. -/
  | verifySignature
  /-- `response signature did not verify against trust anchor {name}`. -/
  | didNotVerify (keyName : Name)
  deriving DecidableEq, Repr

/-- `name_has_prefix`. -/
def nameHasPrefix (name other : Name) : Bool :=
  decide (other.length ≤ name.length) && (name.zip other).all fun p => p.1 = p.2

/-- The anchor that a name finds, if the base can be read. -/
def PibRead.anchor? (pib : PibRead) (keyName : Name) : Option TrustAnchor :=
  match pib with
  | .anchors certs => certs.find? fun cert => cert.name = keyName
  | .unopened | .unreadable => none

section Verify

variable (suite : SigSuite) (pib : PibRead) (dataPrefix keyPrefix : Name) (data : SignedData)

/-- `verify_response` from the key on. -/
def verifyWithKey (info : SigInfo) (keyName : Name) : Except VerifyError Unit :=
  match pib with
  | .unopened => .error .openPib
  | .unreadable => .error .loadAnchors
  | .anchors certs =>
    match certs.find? fun cert => cert.name = keyName with
    | none => .error (.noAnchorMatching keyName)
    | some cert =>
      match Suite.verify suite info.sigType data.signedRegion data.sigValue cert.publicKey with
      | none => .error .verifySignature
      | some false => .error (.didNotVerify keyName)
      | some true => .ok ()

/-- `verify_response`. -/
def verifyResponse : Except VerifyError Unit :=
  if nameHasPrefix data.name dataPrefix then
    match data.sigInfo with
    | none => .error .lacksSignatureInfo
    | some info =>
      if info.sigType = .digestSha256 then .error .usedDigestSha256
      else
        match info.keyLocatorName with
        | none => .error .lacksKeyLocatorName
        | some keyName =>
          if nameHasPrefix keyName keyPrefix then verifyWithKey suite pib data info keyName
          else .error (.keyLocatorNotUnder keyName keyPrefix)
  else .error (.dataNameNotUnder data.name dataPrefix)

/-- The packet and its KeyLocator are where they should be, and an anchor has that name. -/
structure NamesAnchor (info : SigInfo) (cert : TrustAnchor) : Prop where
  dataUnder : dataPrefix <+: data.name
  sigInfo : data.sigInfo = some info
  keyLocator : info.keyLocatorName = some cert.name
  keyUnder : keyPrefix <+: cert.name
  anchor : pib.anchor? cert.name = some cert

/-- The value verifies with the key of the anchor, under the algorithm of its certificate, and
that algorithm is asymmetric. -/
def SignedBy (cert : TrustAnchor) : Prop :=
  Suite.Asymmetric suite cert.sigType ∧
    Suite.verify suite cert.sigType data.signedRegion data.sigValue cert.publicKey = some true

/-- What verification is meant to establish: an anchor has signed the packet, which claims
neither a digest nor a MAC. -/
def Genuine : Prop :=
  ∃ info cert, NamesAnchor pib dataPrefix keyPrefix data info cert ∧
    Suite.Asymmetric suite info.sigType ∧ SignedBy suite data cert

/-- The claimed type cannot be mistaken for that of the anchor: it is excluded or not supported;
or it asks for no secret, and the value is not the one that everyone can compute; or it is
asymmetric, and accepts nothing that the anchor did not sign. -/
def Unmistakable (info : SigInfo) (cert : TrustAnchor) : Prop :=
  info.sigType = .digestSha256 ∨ ∀ a ∈ suite info.sigType,
    if a.IsAsymmetric then
      a.run cert.publicKey data.signedRegion data.sigValue = some true → SignedBy suite data cert
    else a.publicValue cert.publicKey data.signedRegion ≠ some data.sigValue

end Verify

variable {suite : SigSuite} {pib : PibRead} {dataPrefix keyPrefix : Name} {data : SignedData}

/-- The comparison by components is the prefix relation. -/
theorem nameHasPrefix_iff {name other : Name} :
    nameHasPrefix name other = true ↔ other <+: name := by
  rw [nameHasPrefix, Bool.and_eq_true, decide_eq_true_eq]
  induction other generalizing name with
  | nil => simp
  | cons c other ih =>
    cases name with
    | nil => simp
    | cons d name =>
      rw [List.zip_cons_cons, List.all_cons, List.length_cons, List.length_cons,
        Nat.add_le_add_iff_right, List.cons_prefix_cons, Bool.and_eq_true, decide_eq_true_eq, ← ih]
      constructor
      · rintro ⟨hle, hdc, hall⟩
        exact ⟨hdc.symm, hle, hall⟩
      · rintro ⟨hcd, hle, hall⟩
        exact ⟨hle, hcd.symm, hall⟩

/-- An anchor is found under its own name. -/
theorem PibRead.name_of_anchor {keyName : Name} {cert : TrustAnchor}
    (h : pib.anchor? keyName = some cert) : cert.name = keyName := by
  cases pib with
  | unopened | unreadable => cases h
  | anchors certs =>
    have hfound : (certs.find? fun cert => cert.name = keyName) = some cert := h
    simpa using List.find?_some hfound

private theorem verifyWithKey_ok_iff {info : SigInfo} {keyName : Name} :
    verifyWithKey suite pib data info keyName = .ok () ↔
      ∃ cert, pib.anchor? keyName = some cert ∧
        Suite.verify suite info.sigType data.signedRegion data.sigValue cert.publicKey =
          some true := by
  cases pib with
  | unopened | unreadable => simp [verifyWithKey, PibRead.anchor?]
  | anchors certs =>
    simp only [verifyWithKey, PibRead.anchor?]
    cases hfind : certs.find? fun cert => cert.name = keyName with
    | none => simp
    | some cert =>
      simp only [Option.some.injEq, exists_eq_left']
      cases hv : Suite.verify suite info.sigType data.signedRegion data.sigValue cert.publicKey with
      | none => simp
      | some b => cases b <;> simp

/-- What a response passes: it names an anchor, it does not claim DigestSha256, and its value
satisfies the algorithm it claims. -/
theorem verifyResponse_ok_iff :
    verifyResponse suite pib dataPrefix keyPrefix data = .ok () ↔
      ∃ info cert, NamesAnchor pib dataPrefix keyPrefix data info cert ∧
        info.sigType ≠ .digestSha256 ∧
        Suite.verify suite info.sigType data.signedRegion data.sigValue cert.publicKey =
          some true := by
  constructor
  · intro h
    unfold verifyResponse at h
    split_ifs at h with hname
    split at h
    next => cases h
    next info hinfo =>
      split_ifs at h with htype
      split at h
      next => cases h
      next keyName hkey =>
        split_ifs at h with hunder
        obtain ⟨cert, hcert, hverify⟩ := verifyWithKey_ok_iff.mp h
        obtain rfl := PibRead.name_of_anchor hcert
        exact ⟨info, cert, ⟨nameHasPrefix_iff.mp hname, hinfo, hkey, nameHasPrefix_iff.mp hunder,
          hcert⟩, htype, hverify⟩
  · rintro ⟨info, cert, h, htype, hverify⟩
    simp only [verifyResponse, nameHasPrefix_iff.mpr h.dataUnder, h.sigInfo, h.keyLocator,
      nameHasPrefix_iff.mpr h.keyUnder, if_true, if_neg htype]
    exact verifyWithKey_ok_iff.mpr ⟨cert, h.anchor, hverify⟩

/-- A packet names one anchor at most. -/
theorem NamesAnchor.unique {info info' : SigInfo} {cert cert' : TrustAnchor}
    (h : NamesAnchor pib dataPrefix keyPrefix data info cert)
    (h' : NamesAnchor pib dataPrefix keyPrefix data info' cert') : info = info' ∧ cert = cert' := by
  obtain rfl := Option.some.inj (h.sigInfo.symm.trans h'.sigInfo)
  have hname := Option.some.inj (h.keyLocator.symm.trans h'.keyLocator)
  refine ⟨rfl, ?_⟩
  have hcert := h.anchor
  rw [hname] at hcert
  exact Option.some.inj (hcert.symm.trans h'.anchor)

/-- An algorithm that can be mistaken for that of the anchor is one that accepts the value. -/
theorem unmistakable_iff {info : SigInfo} {cert : TrustAnchor} :
    Unmistakable suite data info cert ↔ info.sigType = .digestSha256 ∨
      (Suite.verify suite info.sigType data.signedRegion data.sigValue cert.publicKey = some true →
        Suite.Asymmetric suite info.sigType ∧ SignedBy suite data cert) := by
  rw [Unmistakable, Suite.verify, Suite.Asymmetric]
  refine or_congr_right ?_
  cases suite info.sigType with
  | none => simp
  | some a =>
    simp only [Option.mem_def, Option.some.injEq, forall_eq', exists_eq_left', Option.bind_some]
    by_cases ha : a.IsAsymmetric
    · rw [if_pos ha, and_iff_right ha]
    · rw [if_neg ha, ne_eq, ← Algorithm.run_eq_true_iff ha]
      constructor
      · intro hne hrun
        exact absurd hrun hne
      · intro hall hrun
        exact ha (hall hrun).1

/-- A response that passes is genuine exactly when the type it claims cannot be mistaken for
that of the anchor it names. -/
theorem verified_genuine_iff (suite : SigSuite) (pib : PibRead) (dataPrefix keyPrefix : Name)
    (data : SignedData) :
    (verifyResponse suite pib dataPrefix keyPrefix data = .ok () →
        Genuine suite pib dataPrefix keyPrefix data) ↔
      ∀ info cert, NamesAnchor pib dataPrefix keyPrefix data info cert →
        Unmistakable suite data info cert := by
  constructor
  · intro hsound info cert hnames
    refine unmistakable_iff.mpr ?_
    by_cases htype : info.sigType = .digestSha256
    · exact Or.inl htype
    · refine Or.inr fun hverify => ?_
      obtain ⟨info', cert', hnames', hsigned⟩ :=
        hsound (verifyResponse_ok_iff.mpr ⟨info, cert, hnames, htype, hverify⟩)
      obtain ⟨rfl, rfl⟩ := hnames'.unique hnames
      exact hsigned
  · intro hall hok
    obtain ⟨info, cert, hnames, htype, hverify⟩ := verifyResponse_ok_iff.mp hok
    have hunmistakable := unmistakable_iff.mp (hall info cert hnames)
    exact ⟨info, cert, hnames, hunmistakable.resolve_left htype hverify⟩

/-- Whoever can read the anchors can make any content pass: it is enough to claim a digest other
than DigestSha256, or a MAC, and to fill in the value that everyone can compute. -/
theorem exists_forged {info : SigInfo} {cert : TrustAnchor}
    (h : NamesAnchor pib dataPrefix keyPrefix data info cert) (htype : info.sigType ≠ .digestSha256)
    {a : Algorithm Bytes Bytes Bytes} (ha : suite info.sigType = some a) (hopen : ¬a.IsAsymmetric) :
    ∃ value, verifyResponse suite pib dataPrefix keyPrefix { data with sigValue := value } =
      .ok () := by
  obtain ⟨value, hvalue⟩ := Algorithm.exists_publicValue hopen cert.publicKey data.signedRegion
  refine ⟨value, verifyResponse_ok_iff.mpr ⟨info, cert, ?_, htype, ?_⟩⟩
  · exact ⟨h.dataUnder, h.sigInfo, h.keyLocator, h.keyUnder, h.anchor⟩
  · rw [Suite.verify, ha]
    exact hvalue

section Hmac

/-- An Ed25519 public key, SPKI-wrapped. -/
def anchorKey : Bytes :=
  [0x30, 0x2a, 0x30, 0x05, 0x06, 0x03, 0x2b, 0x65, 0x70, 0x03, 0x21, 0x00, 0xd7, 0x5a, 0x98, 0x01,
    0x82, 0xb1, 0x0a, 0xb7, 0xd5, 0x4b, 0xfe, 0xd3, 0xc9, 0x64, 0x07, 0x3a, 0x0e, 0xe1, 0x72, 0xf3,
    0xda, 0xa6, 0x23, 0x25, 0xaf, 0x02, 0x1a, 0x68, 0xf7, 0x07, 0x51, 0x1a]

/-- The signed region of an empty Data `/a` of type 4, whose KeyLocator is `/k`. -/
def hmacRegion : Bytes :=
  [0x07, 0x03, 0x08, 0x01, 0x61, 0x15, 0x00, 0x16, 0x0a, 0x1b, 0x01, 0x04, 0x1c, 0x05, 0x07, 0x03,
    0x08, 0x01, 0x6b]

/-- HMAC-SHA256 of that region under that key. -/
def hmacValue : Bytes :=
  [0x4b, 0x5b, 0x38, 0xeb, 0x96, 0x55, 0xab, 0x6f, 0x70, 0x73, 0xf7, 0xd8, 0x75, 0x75, 0x63, 0xa1,
    0x73, 0x5f, 0x21, 0x23, 0xa2, 0xe9, 0x73, 0x3b, 0x58, 0x02, 0x20, 0x49, 0x8e, 0x17, 0xdd, 0x51]

/-- The algorithms on that input: an Ed25519 signature has 64 bytes, and type 4 is HMAC-SHA256. -/
def hmacSuite : SigSuite
  | .signatureEd25519 => some (.asymmetric fun _ _ _ => some false)
  | .other 4 => some (.mac fun key region =>
      if key = anchorKey ∧ region = hmacRegion then hmacValue else [])
  | _ => none

/-- An anchor of that key. -/
def hmacAnchor : TrustAnchor := ⟨[⟨8, [0x6b]⟩], anchorKey, .signatureEd25519⟩

/-- A response that nobody with the private key of the anchor has seen. -/
def hmacResponse : SignedData :=
  ⟨[⟨8, [0x61]⟩], some ⟨.other 4, some [⟨8, [0x6b]⟩]⟩, hmacRegion, hmacValue⟩

/-- It passes, under the MAC keyed with the public key. -/
theorem hmacResponse_not_genuine :
    ¬(verifyResponse hmacSuite (.anchors [hmacAnchor]) [⟨8, [0x61]⟩] [⟨8, [0x6b]⟩] hmacResponse =
        .ok () →
      Genuine hmacSuite (.anchors [hmacAnchor]) [⟨8, [0x61]⟩] [⟨8, [0x6b]⟩] hmacResponse) := by
  intro hsound
  obtain ⟨info, cert, hnames, hclaimed, -⟩ := hsound (by decide)
  obtain rfl : (⟨.other 4, some [⟨8, [0x6b]⟩]⟩ : SigInfo) = info := Option.some.inj hnames.sigInfo
  obtain ⟨a, ha, hasym⟩ := hclaimed
  obtain rfl := Option.some.inj ha
  exact hasym

end Hmac

end NdnFwd.Response
