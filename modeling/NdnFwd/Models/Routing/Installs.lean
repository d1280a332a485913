import NdnFwd.Core.Draw
import NdnFwd.Core.Utf8
import NdnFwd.Models.Startup.Config

/-!
# Installing the routing protocols

NLSR and ndn-dv each open a UDP face for every neighbour that they can, and stage in-process faces
to talk to the engine through. What depends on the engine is queued: entries of the FIB, neighbours
to start with, and which faces may pin an Interest to a next hop.
-/

namespace NdnFwd.Routing

/-- A face staged on the engine builder. -/
inductive Transport
  /-- `UdpFace::bind`. -/
  | udp (bound peer : SocketAddr)
  /-- `InProcFace::new`. -/
  | inProc (capacity : Nat)
  deriving DecidableEq, Repr

/-- An entry of `routing.nlsr.neighbors` or `routing.dv.neighbors`. -/
structure NeighbourToml where
  name : String
  faceUri : String
  linkCost : Nat
  deriving DecidableEq, Repr

/-- The parts of `[routing.nlsr]` that concern names and faces. -/
structure NlsrToml where
  enabled : Bool
  network : String
  router : String
  neighbors : List NeighbourToml
  namePrefixes : List String
  deriving DecidableEq, Repr

/-- `NeighborConfig`. -/
structure NeighborConfig where
  name : Name
  faceUri : String
  linkCost : Nat
  deriving DecidableEq, Repr

/-- The parts of `NlsrConfig` that concern names and faces. -/
structure NlsrConfig where
  ownRouter : Name
  network : Name
  lsaPrefix : Name
  syncPrefix : Name
  neighbors : List NeighborConfig
  namePrefixes : List Name
  deriving DecidableEq, Repr

/-- `NlsrIo`: a handle is known by the face at its other end. -/
structure NlsrIo where
  neighborFaceIds : List (Name × FaceId)
  helloNeighborHandles : List (Name × FaceId)
  syncLsaHandle : FaceId
  deriving DecidableEq, Repr

/-- The parts of `[routing.dv]` that concern names and faces. -/
structure DvToml where
  enabled : Bool
  network : String
  router : String
  neighbors : List NeighbourToml
  deriving DecidableEq, Repr

/-- The names of `DvConfig`, and the faces that ndn-dv fetches and produces through. -/
structure DvIo where
  network : Name
  router : Name
  fetchHandle : FaceId
  produceHandle : FaceId
  produceId : FaceId
  deriving DecidableEq, Repr

/-- A protocol registered on the engine builder. -/
inductive Protocol
  | nlsr (cfg : NlsrConfig) (io : NlsrIo)
  | dv (io : DvIo)
  deriving DecidableEq, Repr

/-- `EngineBuilder`: where its allocator stands and what is staged on it. -/
structure EngineBuilder where
  next : Nat
  faces : List (FaceId × Transport)
  routing : List Protocol
  discovery : List Protocol
  deriving DecidableEq, Repr

/-- The tasks that answer Interests for NLSR. -/
inductive Producer
  | hello (handle : FaceId)
  | sync (handle : FaceId)
  | lsa (handle : FaceId)
  deriving DecidableEq, Repr

/-- `PostBuildQueue`. -/
structure PostBuildQueue where
  /-- `add_fib_entry`: a prefix, a next hop and its cost. -/
  fib : List (Name × FaceId × Nat)
  /-- `seed_neighbor`. -/
  seeds : List (Name × FaceId)
  /-- `set_local_fields`. -/
  localFields : List FaceId
  /-- The tasks spawned. -/
  producers : List Producer
  deriving DecidableEq, Repr

/-- What is staged and what is queued. -/
abbrev Staged := EngineBuilder × PostBuildQueue

/-- What the routing library supplies, and how a bind and a status mount turn out. -/
structure Surroundings where
  /-- `NlsrConfig::default_lsa_prefix`. -/
  defaultLsaPrefix : Name → Name
  /-- `NlsrConfig::default_sync_prefix`. -/
  defaultSyncPrefix : Name → Name
  /-- Whether `UdpFace::bind` succeeds. -/
  binds : SocketAddr → SocketAddr → FaceId → Bool
  /-- `mount_routing_status`. -/
  mountRoutingStatus : Name → Staged → Staged

/-- `/localhost/nlsr/status`. -/
def statusPrefix : Name :=
  [.generic (asBytes "localhost"), .generic (asBytes "nlsr"), .generic (asBytes "status")]

/-- The address in a face URI: what follows `udp4://` or else `udp://`, or all of it. -/
def addrOf (uri : String) : String :=
  match uri.dropPrefix? "udp4://" with
  | some rest => rest.toString
  | none =>
    match uri.dropPrefix? "udp://" with
    | some rest => rest.toString
    | none => uri

/-- The local address for a peer: `0.0.0.0:0` or `[::]:0`. -/
def unspecifiedFor (peer : SocketAddr) : SocketAddr :=
  if peer.ip.length = 4 then ⟨[0, 0, 0, 0], 0⟩ else ⟨List.replicate 16 0, 0⟩

namespace EngineBuilder

/-- `alloc_face_id`. -/
def bump (b : EngineBuilder) : EngineBuilder := { b with next := b.next + 1 }

/-- `add_face`. -/
def addFace (b : EngineBuilder) (id : FaceId) (t : Transport) : EngineBuilder :=
  { b with faces := b.faces ++ [(id, t)] }

end EngineBuilder

section Prepare

variable (node : Node) (env : Surroundings)

/-- Draw an identifier and stage an in-process face under it. -/
def addInProc (b : EngineBuilder) (capacity : Nat) : EngineBuilder × FaceId :=
  (b.bump.addFace (node.allocFaceId b.next) (.inProc capacity), node.allocFaceId b.next)

/-- The loop over the neighbours, the same for both protocols. A neighbour whose URI holds no
address takes no identifier; one whose face does not open has taken one. -/
def openNeighbours : EngineBuilder → List NeighbourToml → EngineBuilder × List (Name × FaceId)
  | b, [] => (b, [])
  | b, n :: ns =>
    match node.parseSocketAddr (addrOf n.faceUri) with
    | none => openNeighbours b ns
    | some peer =>
      let id := node.allocFaceId b.next
      if env.binds (unspecifiedFor peer) peer id then
        let (b, opened) := openNeighbours (b.bump.addFace id (.udp (unspecifiedFor peer) peer)) ns
        (b, (node.nameOrRoot n.name, id) :: opened)
      else openNeighbours b.bump ns

/-- The configuration that `nlsr::prepare` builds. -/
def nlsrConfig (toml : NlsrToml) : NlsrConfig :=
  let network := (node.parseName toml.network).getD [.generic (asBytes "ndn")]
  { ownRouter := node.nameOrRoot toml.router
    network
    lsaPrefix := env.defaultLsaPrefix network
    syncPrefix := env.defaultSyncPrefix network
    neighbors := toml.neighbors.map fun n => ⟨node.nameOrRoot n.name, n.faceUri, n.linkCost⟩
    namePrefixes := toml.namePrefixes.filterMap node.parseName }

/-- `NlsrInstaller`. -/
structure NlsrInstaller where
  cfg : NlsrConfig
  neighbourFaceIds : List (Name × FaceId)
  deriving DecidableEq, Repr

/-- `nlsr::prepare`. -/
def prepareNlsr (toml : NlsrToml) (b : EngineBuilder) : EngineBuilder × Option NlsrInstaller :=
  if toml.enabled then
    let (b, opened) := openNeighbours node env b toml.neighbors
    (b, some ⟨nlsrConfig node env toml, opened⟩)
  else (b, none)

/-- The hello consumers, one for each neighbour with a face. -/
def addHelloConsumers : EngineBuilder → List (Name × FaceId) →
    EngineBuilder × List (Name × FaceId)
  | b, [] => (b, [])
  | b, n :: ns =>
    let (b, id) := addInProc node b 64
    let (b, handles) := addHelloConsumers b ns
    (b, (n.1, id) :: handles)

/-- The FIB entries of the three producers. -/
def NlsrInstaller.fibEntries (self : NlsrInstaller)
    (helloProducerId syncProducerId lsaProducerId : FaceId) : List (Name × FaceId × Nat) :=
  [(self.cfg.ownRouter ++ [.generic (asBytes "nlsr"), .generic (asBytes "INFO")],
      helloProducerId, 0),
    (self.cfg.syncPrefix, syncProducerId, 0), (self.cfg.lsaPrefix, lsaProducerId, 0)]

/-- `NlsrInstaller::install`. -/
def NlsrInstaller.install (self : NlsrInstaller) (s : Staged) : Staged :=
  let (b, handles) := addHelloConsumers node s.1 self.neighbourFaceIds
  let (b, syncLsaConsumerId) := addInProc node b 256
  let (b, helloProducerId) := addInProc node b 64
  let (b, syncProducerId) := addInProc node b 256
  let (b, lsaProducerId) := addInProc node b 256
  let io : NlsrIo := ⟨self.neighbourFaceIds, handles, syncLsaConsumerId⟩
  let b := { b with routing := b.routing ++ [.nlsr self.cfg io] }
  let (b, q) := env.mountRoutingStatus statusPrefix (b, s.2)
  (b, { q with
    fib := q.fib ++ self.fibEntries helloProducerId syncProducerId lsaProducerId
    localFields := q.localFields ++ handles.map Prod.snd ++ [syncLsaConsumerId]
    producers := q.producers ++
      [.hello helloProducerId, .sync syncProducerId, .lsa lsaProducerId] })

/-- `DvInstaller`. -/
structure DvInstaller where
  dv : DvIo
  neighbourSeeds : List (Name × FaceId)
  pfsRoutes : List (Name × FaceId)
  deriving DecidableEq, Repr

/-- The name of the prefix sync group. -/
def pfsGroup (network : Name) : Name :=
  network ++ [.generic (asBytes "DV"), .generic (asBytes "PFS")]

/-- `dv::prepare`. -/
def prepareDv (toml : DvToml) (b : EngineBuilder) : EngineBuilder × Option DvInstaller :=
  if toml.enabled then
    let network := node.nameOrRoot toml.network
    let fetchId := node.allocFaceId b.next
    let produceId := node.allocFaceId (b.next + 1)
    let b := (b.bump.bump.addFace fetchId (.inProc 256)).addFace produceId (.inProc 256)
    let (b, opened) := openNeighbours node env b toml.neighbors
    (b, some {
      dv := ⟨network, node.nameOrRoot toml.router, fetchId, produceId, produceId⟩
      neighbourSeeds := opened
      pfsRoutes := opened.map fun e => (pfsGroup network, e.2) })
  else (b, none)

/-- `DvInstaller::install`. -/
def DvInstaller.install (self : DvInstaller) (s : Staged) : Staged :=
  let b := { s.1 with
    discovery := s.1.discovery ++ [.dv self.dv], routing := s.1.routing ++ [.dv self.dv] }
  env.mountRoutingStatus statusPrefix (b, { s.2 with
    seeds := s.2.seeds ++ self.neighbourSeeds
    fib := s.2.fib ++ self.pfsRoutes.map fun e => (e.1, e.2, 0) })

/-- `PostBuildQueue::new`. -/
def PostBuildQueue.new : PostBuildQueue := ⟨[], [], [], []⟩

/-- NLSR as `main` prepares and installs it. -/
def stageNlsr (toml : NlsrToml) (s : Staged) : Staged :=
  match prepareNlsr node env toml s.1 with
  | (b, some installer) => installer.install node env (b, s.2)
  | (b, none) => (b, s.2)

/-- ndn-dv as `main` prepares and installs it. -/
def stageDv (toml : DvToml) (s : Staged) : Staged :=
  match prepareDv node env toml s.1 with
  | (b, some installer) => installer.install env (b, s.2)
  | (b, none) => (b, s.2)

/-- What `main` does about routing before the engine is built. -/
def installRouting (nlsr : NlsrToml) (dv : DvToml) (b : EngineBuilder) : Staged :=
  stageDv node env dv (stageNlsr node env nlsr (b, .new))

end Prepare

end NdnFwd.Routing
