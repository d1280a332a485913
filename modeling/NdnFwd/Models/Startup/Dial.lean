import NdnFwd.Core.Query
import NdnFwd.Models.Startup.FaceSetup

/-!
# Two ways to dial a TLS face

A `[[face]]` entry and `faces/create` each choose whom a QUIC or WebTransport face trusts,
the one from fields of the configuration, the other from the query of a URI. Where only a
pin or only `webpki` is given they agree. Given both, an entry prefers WebPKI and a URI
prefers the pin; given neither, only `wts://` falls back to WebPKI.
-/

namespace NdnFwd

/-- `ProvisionError::BadParams`. -/
inductive ProvisionError
  /-- `invalid cert hash (need 64 hex chars): {hex}`. -/
  | invalidCertHash (hex : String)
  /-- `quic:// requires ?cert=<64 hex chars> (pin) or ?webpki`. -/
  | quicRequires
  deriving DecidableEq, Repr

/-- The transports that are dialled over TLS. -/
inductive DialScheme
  | quic
  | webTransport
  deriving DecidableEq, Repr

/-- The trust a face was given. -/
def FaceSpec.tls? : FaceSpec → Option ClientTls
  | .webTransport _ tls | .quic _ tls => some tls
  | _ => none

/-- The trust of the face that an arm mounts. -/
def Arm.tls? : Arm → Option ClientTls
  | .mount spec => spec.tls?
  | _ => none

namespace DialScheme

/-- The scheme of the URIs that are dialled. -/
def uriScheme : DialScheme → List Char
  | quic => "quic://".toList
  | webTransport => "wts://".toList

/-- The `[[face]]` entry. -/
def faceConfig (remote : String) (certSha256 : Option String) (webpki : Bool) :
    DialScheme → FaceConfig
  | quic => .quic remote certSha256 webpki
  | webTransport => .webTransport remote certSha256 webpki

/-- Whether the feature is compiled in. -/
def built (node : Node) : DialScheme → Bool
  | quic => node.build.quic
  | webTransport => node.build.webtransport

/-- `handles`. -/
def handles (scheme : DialScheme) (uri : List Char) : Bool := scheme.uriScheme.isPrefixOf uri

end DialScheme

/-- `find_map(|kv| kv.strip_prefix("cert="))`. -/
def certHex (params : List (List Char)) : Option (List Char) :=
  params.findSome? fun kv => kv.dropPrefix? "cert=".toList

/-- `*kv == "webpki" || *kv == "webpki=true"`. -/
def isWebpki (kv : List Char) : Bool := kv = "webpki".toList || kv = "webpki=true".toList

namespace Node

variable (node : Node)

/-- Trust one certificate. -/
def pinned (hex : List Char) : Except ProvisionError ClientTls :=
  match node.parseCertSha256Hex (String.ofList hex) with
  | some h => .ok (.certHashes [h])
  | none => .error (.invalidCertHash (String.ofList hex))

/-- The trust that `QuicProvisioner::provision` reads from the parameters. -/
def quicTls (params : List (List Char)) : Except ProvisionError ClientTls :=
  match certHex params with
  | some hex => node.pinned hex
  | none => if params.any isWebpki then .ok .webPki else .error .quicRequires

/-- The trust that `WebTransportProvisioner::provision` reads from the parameters. -/
def webTransportTls (params : List (List Char)) : Except ProvisionError ClientTls :=
  match certHex params with
  | some hex => node.pinned hex
  | none => .ok .webPki

/-- `provision`: the face that is dialled. -/
def provisionWith (scheme : DialScheme) (uri : List Char) : Except ProvisionError FaceSpec :=
  let rest := (uri.dropPrefix? scheme.uriScheme).getD uri
  let target := Query.parse '?' '&' rest
  match scheme with
  | .quic => (node.quicTls target.2).map (.quic (String.ofList target.1))
  | .webTransport =>
    (node.webTransportTls target.2).map (.webTransport ("https://" ++ String.ofList target.1))

/-- `face_provisioners`, as far as they dial over TLS. -/
def faceProvisioners : List DialScheme := [DialScheme.quic, .webTransport].filter (·.built node)

/-- `faces/create` with a URI: the first provisioner that handles it. -/
def facesCreate (uri : List Char) : Option (Except ProvisionError FaceSpec) :=
  (node.faceProvisioners.find? fun scheme => scheme.handles uri).map fun scheme =>
    node.provisionWith scheme uri

/-- The trust chosen for an entry, unless its arm gives up. -/
def configTls (scheme : DialScheme) (remote : String) (certSha256 : Option String)
    (webpki : Bool) : Option ClientTls :=
  (node.arm (scheme.faceConfig remote certSha256 webpki)).tls?

/-- The trust chosen for a URI, unless the request is refused. -/
def createTls (uri : List Char) : Option ClientTls :=
  ((node.facesCreate uri).bind Except.toOption).bind FaceSpec.tls?

/-- A pin that was supplied is what the face trusts, or the face is not dialled. -/
def PinKept (certSha256 : Option String) (tls : Option ClientTls) : Prop :=
  ∀ hex, certSha256 = some hex →
    tls = none ∨ ∃ h, node.parseCertSha256Hex hex = some h ∧ tls = some (.certHashes [h])

end Node

/-- The parameters of a URI, read one by one: the pin if there is one, `webpki` if it is chosen,
and whatever else. -/
structure Spells (params : List (List Char)) (certSha256 : Option String) (webpki : Bool) :
    Prop where
  separated : ∀ p ∈ params, '&' ∉ p
  cert : params.filterMap (fun kv => kv.dropPrefix? "cert=".toList) =
    certSha256.toList.map String.toList
  webpki : (∃ p ∈ params, isWebpki p = true) ↔ webpki = true

/-- The URI carries the parameters, in any order and among any others. -/
def DialScheme.Carries (scheme : DialScheme) (uri authority : List Char)
    (certSha256 : Option String) (webpki : Bool) : Prop :=
  ∃ params, uri = scheme.uriScheme ++ Query.render '?' '&' authority params ∧ '?' ∉ authority ∧
    Spells params certSha256 webpki

/-- Both ways choose the same trust or refuse, and neither overrides a pin. -/
def Node.DialsAlike (node : Node) (scheme : DialScheme) (remote : String) (uri : List Char)
    (certSha256 : Option String) (webpki : Bool) : Prop :=
  node.configTls scheme remote certSha256 webpki = node.createTls uri ∧
    node.PinKept certSha256 (node.configTls scheme remote certSha256 webpki) ∧
    node.PinKept certSha256 (node.createTls uri)

/-- The trust a URI asks for: the pin if there is one, else WebPKI, which `quic` has to name. -/
def Node.uriTls (node : Node) (scheme : DialScheme) (certSha256 : Option String) (webpki : Bool) :
    Option ClientTls :=
  match certSha256 with
  | some hex => (node.parseCertSha256Hex hex).map fun h => .certHashes [h]
  | none => if scheme = .webTransport ∨ webpki = true then some .webPki else none

variable {node : Node} {scheme : DialScheme} {params : List (List Char)}
  {certSha256 : Option String} {webpki : Bool}

/-- The trust of an entry. -/
theorem Node.configTls_eq (remote : String) :
    node.configTls scheme remote certSha256 webpki =
      if scheme.built node then node.clientTls certSha256 webpki else none := by
  cases scheme with
  | quic =>
    cases hb : node.build.quic <;> cases htls : node.clientTls certSha256 webpki <;>
      simp [configTls, DialScheme.faceConfig, Node.arm, DialScheme.built, hb, htls, Arm.tls?,
        FaceSpec.tls?]
  | webTransport =>
    cases hb : node.build.webtransport <;> cases htls : node.clientTls certSha256 webpki <;>
      simp [configTls, DialScheme.faceConfig, Node.arm, DialScheme.built, hb, htls, Arm.tls?,
        FaceSpec.tls?]

private theorem Spells.certHex_eq (h : Spells params certSha256 webpki) :
    certHex params = certSha256.map String.toList := by
  rw [certHex, ← List.head?_filterMap, h.cert]
  cases certSha256 <;> rfl

private theorem Spells.any_eq (h : Spells params certSha256 webpki) :
    params.any isWebpki = webpki := by
  rw [Bool.eq_iff_iff, List.any_eq_true]
  exact h.webpki

/-- No URI has both schemes. -/
theorem DialScheme.handles_uri (other : DialScheme) (text : List Char) :
    other.handles (scheme.uriScheme ++ text) = decide (other = scheme) := by
  cases scheme <;> cases other <;> rfl

/-- The provisioner of the scheme is the one that is asked, if it is there. -/
theorem Node.facesCreate_eq (text : List Char) :
    node.facesCreate (scheme.uriScheme ++ text) =
      if scheme.built node then some (node.provisionWith scheme (scheme.uriScheme ++ text))
      else none := by
  simp only [facesCreate, faceProvisioners, DialScheme.handles_uri]
  cases scheme <;> cases hq : DialScheme.quic.built node <;>
    cases hw : DialScheme.webTransport.built node <;> simp [List.filter, hq, hw]

/-- The trust that the parameters of a URI ask for is the one it is dialled with. -/
theorem Node.provisionWith_tls {authority : List Char} (hauthority : '?' ∉ authority)
    (h : Spells params certSha256 webpki) :
    (node.provisionWith scheme
        (scheme.uriScheme ++ Query.render '?' '&' authority params)).toOption.bind FaceSpec.tls? =
      node.uriTls scheme certSha256 webpki := by
  have hrest : (scheme.uriScheme ++ Query.render '?' '&' authority params).dropPrefix?
      scheme.uriScheme = some (Query.render '?' '&' authority params) :=
    List.dropPrefix?_eq_some_iff.mpr ⟨_, rfl, BEq.rfl⟩
  have hpinned : ∀ hex : String, node.pinned hex.toList =
      ((node.parseCertSha256Hex hex).map fun h => .certHashes [h]).elim
        (.error (.invalidCertHash hex)) .ok := by
    intro hex
    rw [pinned, String.ofList_toList]
    cases node.parseCertSha256Hex hex <;> rfl
  simp only [provisionWith, hrest, Option.getD_some, Query.parse_render hauthority h.separated,
    quicTls, webTransportTls, h.certHex_eq, h.any_eq]
  cases certSha256 with
  | none =>
    cases scheme with
    | quic => cases webpki <;> rfl
    | webTransport => rfl
  | some hex =>
    simp only [Option.map_some, hpinned, uriTls]
    cases scheme <;> cases node.parseCertSha256Hex hex <;> rfl

/-- A URI is dialled with the trust it asks for, where its scheme is compiled in. -/
theorem Node.createTls_eq {uri authority : List Char}
    (h : scheme.Carries uri authority certSha256 webpki) :
    node.createTls uri =
      if scheme.built node then node.uriTls scheme certSha256 webpki else none := by
  obtain ⟨params, rfl, hauthority, hspells⟩ := h
  rw [createTls, facesCreate_eq]
  split_ifs
  · exact provisionWith_tls hauthority hspells
  · rfl

/-- A URI never overrides its pin. -/
theorem Node.pinKept_uriTls : node.PinKept certSha256 (node.uriTls scheme certSha256 webpki) := by
  rintro hex rfl
  rw [uriTls]
  cases node.parseCertSha256Hex hex with
  | none => exact Or.inl rfl
  | some h => exact Or.inr ⟨h, rfl, rfl⟩

/-- Neither does an entry that does not ask for WebPKI, and it then chooses as a URI does. -/
theorem Node.clientTls_of_pin (scheme : DialScheme) (hex : String) :
    node.clientTls (some hex) false = node.uriTls scheme (some hex) false := rfl

/-- The trust of an entry and that of a URI with the same parameters differ exactly when both a
pin and WebPKI are asked for, or neither is and the scheme is `wts`. -/
theorem Node.clientTls_eq_uriTls_iff :
    node.clientTls certSha256 webpki = node.uriTls scheme certSha256 webpki ↔
      ¬(certSha256.isSome = true ∧ webpki = true) ∧
        ¬(scheme = .webTransport ∧ certSha256 = none ∧ webpki = false) := by
  cases certSha256 with
  | none =>
    cases webpki with
    | true => simp [clientTls, uriTls]
    | false => cases scheme <;> simp [clientTls, uriTls]
  | some hex =>
    cases webpki with
    | true => cases hp : node.parseCertSha256Hex hex <;> simp [clientTls, uriTls, hp]
    | false => simp [clientTls_of_pin scheme]

/-- For parameters that do not ask for both a pin and WebPKI, the two ways agree and keep the
pin, except that without any parameter `wts://` falls back to WebPKI and an entry gives up.
A URI keeps its pin in every case. -/
theorem Node.dial_policy (node : Node) (scheme : DialScheme) (remote : String)
    (authority uri : List Char) (certSha256 : Option String) (webpki : Bool)
    (h : scheme.Carries uri authority certSha256 webpki) :
    node.PinKept certSha256 (node.createTls uri) ∧
      (¬(certSha256.isSome = true ∧ webpki = true) →
        node.PinKept certSha256 (node.configTls scheme remote certSha256 webpki) ∧
          if scheme = .webTransport ∧ certSha256 = none ∧ webpki = false ∧
              scheme.built node = true then
            node.configTls scheme remote certSha256 webpki = none ∧
              node.createTls uri = some .webPki
          else node.configTls scheme remote certSha256 webpki = node.createTls uri) := by
  rw [configTls_eq, createTls_eq h]
  cases hb : scheme.built node with
  | false =>
    have hnone : node.PinKept certSha256 none := fun _ _ => Or.inl rfl
    exact ⟨hnone, fun _ => ⟨hnone, by simp⟩⟩
  | true =>
    refine ⟨pinKept_uriTls, fun hone => ?_⟩
    by_cases hfallback : scheme = .webTransport ∧ certSha256 = none ∧ webpki = false
    · obtain ⟨rfl, rfl, rfl⟩ := hfallback
      exact ⟨fun _ hex => absurd hex (by simp), rfl, rfl⟩
    · have hsame : node.clientTls certSha256 webpki = node.uriTls scheme certSha256 webpki :=
        clientTls_eq_uriTls_iff.mpr ⟨hone, hfallback⟩
      rw [if_pos rfl, if_pos rfl, hsame]
      refine ⟨pinKept_uriTls, ?_⟩
      rw [if_neg fun hall => hfallback ⟨hall.1, hall.2.1, hall.2.2.1⟩]

/-- The hash of an empty certificate. -/
def samplePin : String := "e3b0c44298fc1c149afbf4c8996fb92427ae41e4649b934ca495991b7852b855"

/-- A build with both transports. -/
def dialNode : Node :=
  { sampleNode with
    build := { sampleNode.build with webtransport := true, quic := true }
    parseCertSha256Hex := fun text =>
      if text = samplePin then
        some [0xe3, 0xb0, 0xc4, 0x42, 0x98, 0xfc, 0x1c, 0x14, 0x9a, 0xfb, 0xf4, 0xc8, 0x99, 0x6f,
          0xb9, 0x24, 0x27, 0xae, 0x41, 0xe4, 0x64, 0x9b, 0x93, 0x4c, 0xa4, 0x95, 0x99, 0x1b, 0x78,
          0x52, 0xb8, 0x55]
      else none }

/-- A pin among other parameters is the pin of the face. -/
theorem dialNode_pin :
    let uri := "quic://h:1?mtu=1200&cert=".toList ++ samplePin.toList
    DialScheme.quic.Carries uri "h:1".toList (some samplePin) false ∧
      dialNode.configTls .quic "quic://h:1" (some samplePin) false = dialNode.createTls uri := by
  have hcarries : DialScheme.quic.Carries ("quic://h:1?mtu=1200&cert=".toList ++ samplePin.toList)
      "h:1".toList (some samplePin) false := by
    refine ⟨["mtu=1200".toList, "cert=".toList ++ samplePin.toList], rfl, by decide, ?_⟩
    exact ⟨by decide, rfl, by decide⟩
  refine ⟨hcarries, ?_⟩
  have hpolicy := Node.dial_policy dialNode .quic "quic://h:1" _ _ _ _ hcarries
  have hboth := hpolicy.2 (by decide)
  rw [if_neg (by decide)] at hboth
  exact hboth.2

/-- Without any parameter an entry gives up, and `wts://` is dialled with WebPKI. -/
theorem dialNode_not_dialsAlike :
    DialScheme.webTransport.Carries "wts://h:1".toList "h:1".toList none false ∧
      ¬dialNode.DialsAlike .webTransport "wts://h:1" "wts://h:1".toList none false := by
  have hcarries : DialScheme.webTransport.Carries "wts://h:1".toList "h:1".toList none false :=
    ⟨[], rfl, by decide, by decide, rfl, by decide⟩
  refine ⟨hcarries, fun hsame => ?_⟩
  have hcreate : dialNode.createTls "wts://h:1".toList = some .webPki :=
    Node.createTls_eq hcarries
  rw [Node.DialsAlike, hcreate, Node.configTls_eq] at hsame
  exact absurd hsame.1 (by decide)

end NdnFwd
