import NdnFwd.Models.Startup.FaceIds

/-!
# What face setup makes of the configuration

`run_face_setup`: one arm for every kind of `[[face]]` entry, and then the automatic
multicast faces. An arm mounts a face under the identifier of its entry, or starts a
listener whose faces get identifiers later, or does nothing. Whether a socket opens is
not modelled: a face that is attempted counts as mounted.
-/

namespace NdnFwd

/-- How a dialled face checks the certificate of its peer. -/
inductive ClientTls
  | webPki
  | certHashes (hashes : List Bytes)
  deriving DecidableEq, Repr

/-- A face that setup creates, or tries to create. -/
inductive FaceSpec
  | udpConnected (localPort : UInt16) (peer : SocketAddr)
  | multicastUdp (iface : Ipv4Addr) (port : UInt16) (group : Ipv4Addr)
  | webTransport (url : String) (tls : ClientTls)
  | quic (authority : String) (tls : ClientTls)
  | serial (path : String) (baud : Nat)
  | multicastEther (interface : String)
  | afXdp (interface : String) (mac : Bytes) (bpfObject : Option String)
  | namedEther (interface : String) (mac : Bytes)
  | radio (radios : List RadioDeviceConfig)
  deriving DecidableEq, Repr

/-- A listener that is set up for a `[[face]]` entry. -/
inductive ListenerSpec
  | udp (addr : SocketAddr)
  | tcp (addr : SocketAddr)
  | webSocket (addr : SocketAddr)
  deriving DecidableEq, Repr

/-- What one arm does: it logs and goes on, starts a listener, mounts a face, or ends the
process. -/
inductive Arm
  | skip
  | listen (l : ListenerSpec)
  | mount (spec : FaceSpec)
  | exit
  deriving DecidableEq, Repr

/-- What face setup does for the entries, each with its index. -/
inductive SetupAction
  | listener (entry : Nat) (l : ListenerSpec)
  | face (entry : Nat) (id : FaceId) (spec : FaceSpec)
  deriving DecidableEq, Repr

namespace Node

variable (node : Node)

/-- A listener on an address that parses. -/
def listenOn (bind : String) (listener : SocketAddr → ListenerSpec) : Arm :=
  match node.parseSocketAddr bind with
  | some addr => .listen (listener addr)
  | none => .skip

/-- The trust of a dialled TLS face; without one the arm gives up. -/
def clientTls (certSha256 : Option String) (webpki : Bool) : Option ClientTls :=
  if webpki then some .webPki
  else (certSha256.bind node.parseCertSha256Hex).map fun h => .certHashes [h]

/-- Replace a scheme by another one, if the text has it. -/
def swapScheme (scheme replacement text : String) : String :=
  match text.dropPrefix? scheme with
  | some rest => replacement ++ rest.toString
  | none => text

/-- The platforms of the unicast Ethernet face. -/
def etherOs : TargetOs → Bool
  | .linux | .macos | .windows => true
  | .other => false

/-- The arm of `run_face_setup_inner` for one entry. -/
def arm : FaceConfig → Arm
  | .udp bind (some remote) =>
    match node.parseSocketAddr remote with
    | none => .skip
    | some peer =>
      let localPort := ((bind.bind node.parseSocketAddr).map SocketAddr.port).getD 6363
      .mount (.udpConnected localPort peer)
  | .udp bind none => node.listenOn (bind.getD "0.0.0.0:6363") .udp
  | .tcp bind => node.listenOn (bind.getD "0.0.0.0:6363") .tcp
  | .multicast group port interface =>
    let iface := (node.parseIpv4 (interface.getD "0.0.0.0")).getD Ipv4Addr.unspecified
    match node.parseIpv4 group with
    | none => .skip
    | some groupAddr => .mount (.multicastUdp iface port groupAddr)
  | .unix => .skip
  | .webSocket none => .skip
  | .webSocket (some bind) => node.listenOn bind .webSocket
  | .webTransport remote certSha256 webpki =>
    if node.build.webtransport then
      match node.clientTls certSha256 webpki with
      | none => .skip
      | some tls => .mount (.webTransport (swapScheme "wts://" "https://" remote) tls)
    else .skip
  | .quic remote certSha256 webpki =>
    if node.build.quic then
      match node.clientTls certSha256 webpki with
      | none => .skip
      | some tls => .mount (.quic (swapScheme "quic://" "" remote) tls)
    else .skip
  | .serial path baud => if node.build.serial then .mount (.serial path baud) else .skip
  | .etherMulticast interface =>
    if node.build.os = .linux then .mount (.multicastEther interface) else .skip
  | .ether interface peerMac io bpfObject =>
    if node.build.l2 && etherOs node.build.os then
      match node.parseMac peerMac with
      | none => .skip
      | some mac =>
        if io = some "afxdp" ∧ node.build.os = .linux ∧ node.build.afXdp = true then
          .mount (.afXdp interface mac bpfObject)
        else .mount (.namedEther interface mac)
    else .skip
  | .radio radios =>
    if node.build.radio then
      -- `mount_radio_face` fails when no radio comes up, and that ends the process.
      if radios.any node.bringsUp then .mount (.radio radios) else .exit
    else .skip

/-- The loop over the entries; `none` when it ends the process. -/
def setupFaces (ids : List FaceId) (fresh : FaceId) :
    Nat → List FaceConfig → Option (List SetupAction)
  | _, [] => some []
  | idx, entry :: entries =>
    match node.arm entry with
    | .skip => setupFaces ids fresh (idx + 1) entries
    | .listen l => (setupFaces ids fresh (idx + 1) entries).map (.listener idx l :: ·)
    | .mount spec =>
      (setupFaces ids fresh (idx + 1) entries).map (.face idx (idFor ids fresh idx) spec :: ·)
    | .exit => none

end Node

/-- `face_configs`: without entries, listeners on the default port. -/
def ForwarderConfig.faceConfigs (cfg : ForwarderConfig) : List FaceConfig :=
  if cfg.faces = [] then [.udp (some "0.0.0.0:6363") none, .tcp (some "0.0.0.0:6363")]
  else cfg.faces

/-- The loop goes over every entry of the configuration. -/
theorem ForwarderConfig.getElem?_faceConfigs {cfg : ForwarderConfig} {idx : Nat}
    {entry : FaceConfig} (h : cfg.faces[idx]? = some entry) :
    cfg.faceConfigs[idx]? = some entry := by
  have hne : cfg.faces ≠ [] := by
    intro hnil
    rw [hnil] at h
    cases h
  rwa [faceConfigs, if_neg hne]

/-- `MulticastProvisionConfig`. -/
structure MulticastProvisionConfig where
  udpAuto : Bool
  udpAdHoc : Bool
  udpWhitelist : List String
  udpBlacklist : List String
  etherAuto : Bool
  etherWhitelist : List String
  etherBlacklist : List String
  watchInterfaces : Bool
  deriving DecidableEq, Repr

/-- `provision_cfg`. -/
def ForwarderConfig.provisionConfig (cfg : ForwarderConfig) : MulticastProvisionConfig where
  udpAuto := cfg.udp.autoMulticast
  udpAdHoc := cfg.udpAdHoc
  udpWhitelist := cfg.udp.whitelist
  udpBlacklist := cfg.udp.blacklist
  etherAuto := cfg.ether.autoMulticast
  etherWhitelist := cfg.ether.whitelist
  etherBlacklist := cfg.ether.blacklist
  watchInterfaces := cfg.watchInterfaces

/-- An automatic multicast face; `id` is its identifier if discovery chose it. -/
inductive AutoFace
  | ether (id : Option FaceId) (iface : String)
  | udp (id : Option FaceId) (iface : String) (addr : Ipv4Addr) (adHoc : Bool)
  deriving DecidableEq, Repr

namespace AutoFace

/-- Where the multicast UDP face is made. -/
def udpTarget? : AutoFace → Option (String × Ipv4Addr)
  | udp _ iface addr _ => some (iface, addr)
  | ether .. => none

/-- Where the multicast Ethernet face is made. -/
def etherTarget? : AutoFace → Option String
  | ether _ iface => some iface
  | udp .. => none

end AutoFace

/-- `ndn_face::provision`: the faces its two entry points create at startup. -/
structure Provisioner where
  provision : MulticastProvisionConfig → List AutoFace
  spawnHotplugWatcher : MulticastProvisionConfig → List AutoFace

/-- Initial enumeration creates one face for each selected address and interface of the
kinds that are switched on; the watcher creates none for interfaces already present. -/
structure Provisioner.Laws (node : Node) (p : Provisioner) : Prop where
  udp : ∀ c, ((p.provision c).filterMap AutoFace.udpTarget?).Perm
    (node.udpAddrs ⟨c.udpAuto, c.udpWhitelist, c.udpBlacklist⟩)
  ether : ∀ c, ((p.provision c).filterMap AutoFace.etherTarget?).Perm
    (node.etherNames ⟨c.etherAuto, c.etherWhitelist, c.etherBlacklist⟩)
  watcher : ∀ c, p.spawnHotplugWatcher c = []

namespace Node

variable (node : Node)

/-- The automatic multicast faces of `run_face_setup_inner`. -/
def setupAuto (p : Provisioner) (cfg : ForwarderConfig) (pa : PreAlloc) : List AutoFace :=
  let ether :=
    if node.build.os = .linux then pa.autoEther.map fun e => AutoFace.ether (some e.1) e.2 else []
  let udp := pa.autoUdp.map fun e => AutoFace.udp (some e.1) e.2.1 e.2.2 cfg.udpAdHoc
  let rest :=
    if pa.autoUdp ≠ [] ∨ pa.autoEther ≠ [] then
      if cfg.watchInterfaces then p.spawnHotplugWatcher cfg.provisionConfig else []
    else p.provision cfg.provisionConfig
  ether ++ udp ++ rest

/-- `run_face_setup`; `none` when a radio face ends the process. -/
def runFaceSetup (p : Provisioner) (cfg : ForwarderConfig) (pa : PreAlloc) (fresh : FaceId) :
    Option (List SetupAction × List AutoFace) :=
  (node.setupFaces (node.faceIdsByIndex cfg pa) fresh 0 cfg.faceConfigs).map fun actions =>
    (actions, node.setupAuto p cfg pa)

end Node

end NdnFwd
