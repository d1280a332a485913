import NdnFwd.Models.Packet.Name

/-!
# The configuration the forwarder starts from

The part of `ForwarderConfig` that decides which faces, identifiers and nexthops exist
at startup. Text in the configuration stays text: what an address, a name or a key
means is up to parsers that the machine supplies.
-/

namespace NdnFwd

/-- `FaceId`. -/
structure FaceId where
  value : Nat
  deriving DecidableEq, Repr

/-- `Ipv4Addr`. -/
abbrev Ipv4Addr := UInt32

/-- An address and a port; the address is 4 or 16 bytes. -/
structure SocketAddr where
  ip : Bytes
  port : UInt16
  deriving DecidableEq, Repr

/-- `Ipv4Addr::UNSPECIFIED`. -/
def Ipv4Addr.unspecified : Ipv4Addr := 0

/-- A radio device, as far as its driver is concerned. -/
structure RadioDeviceConfig where
  driver : String
  deriving DecidableEq, Repr

/-- One `[[face]]` entry. -/
inductive FaceConfig
  | udp (bind remote : Option String)
  | tcp (bind : Option String)
  | multicast (group : String) (port : UInt16) (interface : Option String)
  | unix
  | webSocket (bind : Option String)
  | webTransport (remote : String) (certSha256 : Option String) (webpki : Bool)
  | quic (remote : String) (certSha256 : Option String) (webpki : Bool)
  | serial (path : String) (baud : Nat)
  | etherMulticast (interface : String)
  | ether (interface peerMac : String) (io bpfObject : Option String)
  | radio (radios : List RadioDeviceConfig)
  deriving DecidableEq, Repr

namespace FaceConfig

/-- `matches!(face_cfg, FaceConfig::Multicast { .. })`. -/
def isMulticast : FaceConfig → Bool
  | multicast .. => true
  | _ => false

/-- `matches!(face_cfg, FaceConfig::EtherMulticast { .. })`. -/
def isEtherMulticast : FaceConfig → Bool
  | etherMulticast .. => true
  | _ => false

end FaceConfig

/-- One `[[route]]` entry; `face` is a zero-based index into `[[face]]`. -/
structure RouteConfig where
  routePrefix : String
  face : Nat
  cost : Nat
  deriving DecidableEq, Repr

/-- `face_system.udp` and `face_system.ether`, as far as they concern multicast. -/
structure AutoConfig where
  autoMulticast : Bool
  whitelist : List String
  blacklist : List String
  deriving DecidableEq, Repr

/-- The discovery section: `enabled()`, `resolved_node_name()`, `discovery_transport`. -/
structure DiscoverySection where
  enabled : Bool
  resolvedNodeName : Option String
  discoveryTransport : Option String
  deriving DecidableEq, Repr

/-- `[demo_ca]`. -/
structure DemoCaConfig where
  enabled : Bool
  caPrefix : String
  identity : String
  deriving DecidableEq, Repr

/-- `ForwarderConfig`, as far as faces and routes are concerned. -/
structure ForwarderConfig where
  faces : List FaceConfig
  routes : List RouteConfig
  udp : AutoConfig
  udpAdHoc : Bool
  ether : AutoConfig
  watchInterfaces : Bool
  discovery : DiscoverySection
  demoCa : DemoCaConfig
  deriving DecidableEq, Repr

/-- One entry of `ndn_face::iface::list_interfaces`. -/
structure InterfaceInfo where
  name : String
  isUp : Bool
  isMulticast : Bool
  isLoopback : Bool
  ipv4Addrs : List Ipv4Addr
  deriving DecidableEq, Repr

/-- The operating systems that the sources tell apart. -/
inductive TargetOs
  | linux | macos | windows | other
  deriving DecidableEq, Repr

/-- The compile-time choices that gate the arms of face setup. -/
structure Build where
  os : TargetOs
  webtransport : Bool
  quic : Bool
  serial : Bool
  l2 : Bool
  afXdp : Bool
  radio : Bool
  deriving DecidableEq, Repr

/-- The machine the forwarder starts on: its build, its interfaces, the identifiers its
engine hands out, and the parsers and checks of the libraries it links. -/
structure Node where
  build : Build
  interfaces : List InterfaceInfo
  allocFaceId : Nat → FaceId
  parseName : String → Option Name
  parseSocketAddr : String → Option SocketAddr
  parseIpv4 : String → Option Ipv4Addr
  parseMac : String → Option Bytes
  parseCertSha256Hex : String → Option Bytes
  interfaceAllowed : String → List String → List String → Bool
  bringsUp : RadioDeviceConfig → Bool
  ephemeralKeychain : String → Bool

namespace Node

variable (node : Node)

/-- `parse_name`: a name that does not parse is the root. -/
def nameOrRoot (uri : String) : Name := (node.parseName uri).getD []

/-- The interfaces that an auto-multicast section selects, if it is switched on. -/
def autoIfaces (auto : AutoConfig) : List InterfaceInfo :=
  if auto.autoMulticast then
    (node.interfaces.filter fun i => i.isUp && i.isMulticast && !i.isLoopback).filter fun i =>
      node.interfaceAllowed i.name auto.whitelist auto.blacklist
  else []

/-- The names of the interfaces that a multicast Ethernet face may be made on. -/
def etherNames (auto : AutoConfig) : List String := (node.autoIfaces auto).map InterfaceInfo.name

/-- Every address of a selected interface. -/
def udpAddrs (auto : AutoConfig) : List (String × Ipv4Addr) :=
  (node.autoIfaces auto).flatMap fun i => i.ipv4Addrs.map fun a => (i.name, a)

/-- `auto_ether_ifaces`, by name. -/
def autoEtherIfaces (cfg : ForwarderConfig) : List String := node.etherNames cfg.ether

/-- `auto_udp_ifaces`. -/
def autoUdpIfaces (cfg : ForwarderConfig) : List (String × Ipv4Addr) := node.udpAddrs cfg.udp

end Node

/-- A Linux build with the default features, on a machine with one Ethernet interface. -/
def sampleNode : Node where
  build := ⟨.linux, false, false, true, true, false, false⟩
  interfaces := [⟨"lo", true, true, true, [0x7f000001]⟩, ⟨"eth0", true, true, false, [0x0a000001]⟩]
  allocFaceId := FaceId.mk
  parseName text := if text = "/demo/CA" then some [⟨8, [100, 101, 109, 111]⟩, ⟨8, [67, 65]⟩]
    else if text = "/a" then some [⟨8, [97]⟩] else none
  parseSocketAddr text := if text = "0.0.0.0:6363" then some ⟨[0, 0, 0, 0], 6363⟩ else none
  parseIpv4 text := if text = "224.0.23.170" then some 0xe00017aa else none
  parseMac _ := none
  parseCertSha256Hex _ := none
  interfaceAllowed name whitelist blacklist :=
    (whitelist.contains "*" || whitelist.contains name) && !blacklist.contains name
  bringsUp _ := false
  ephemeralKeychain _ := true

/-- An auto-multicast section that selects every interface. -/
def sampleAuto : AutoConfig := ⟨true, ["*"], []⟩

/-- A listener, two multicast entries, one route, and neighbour discovery over the given
transport. -/
def sampleConfig (transport : String) : ForwarderConfig where
  faces := [.udp (some "0.0.0.0:6363") none, .multicast "224.0.23.170" 56363 none,
    .etherMulticast "eth0"]
  routes := [⟨"/a", 0, 10⟩]
  udp := sampleAuto
  udpAdHoc := false
  ether := sampleAuto
  watchInterfaces := true
  discovery := ⟨true, some "/a", some transport⟩
  demoCa := ⟨false, "", ""⟩

end NdnFwd
