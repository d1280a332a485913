import NdnFwd.Models.Startup.FaceSetup

/-!
# The routes of the configuration

`main` gives a route the identifier of the entry it points at, whatever the entry does.
Only some entries ever mount a face under that identifier: a listener makes its faces
later and under other identifiers. A route therefore lands on a face of its entry exactly
when the entry is of a kind that mounts one.
-/

namespace NdnFwd

/-- `origin::STATIC`. -/
def Origin.static : Nat := 255

/-- `route_flags::CHILD_INHERIT`. -/
def RouteFlags.childInherit : Nat := 1

/-- `RibRoute`. -/
structure RibRoute where
  faceId : FaceId
  origin : Nat
  cost : Nat
  flags : Nat
  expiresAt : Option Nat
  deriving DecidableEq, Repr

namespace Node

variable (node : Node)

/-- One `[[route]]` entry: the name and the route that `main` adds to the RIB, unless its
index is out of range. -/
def installRoute (ids : List FaceId) (route : RouteConfig) : Option (Name × RibRoute) :=
  match ids[route.face]? with
  | none => none
  | some faceId =>
    some (node.nameOrRoot route.routePrefix,
      ⟨faceId, Origin.static, route.cost, RouteFlags.childInherit, none⟩)

/-- The routes that `main` adds to the RIB, in order. -/
def installedRoutes (cfg : ForwarderConfig) (ids : List FaceId) : List (Name × RibRoute) :=
  cfg.routes.filterMap (node.installRoute ids)

/-- The entries that mount a face under their identifier, on this build. -/
def mounts : FaceConfig → Bool
  | .udp _ remote => (remote.bind node.parseSocketAddr).isSome
  | .multicast group _ _ => (node.parseIpv4 group).isSome
  | .webTransport _ certSha256 webpki =>
    node.build.webtransport && (node.clientTls certSha256 webpki).isSome
  | .quic _ certSha256 webpki => node.build.quic && (node.clientTls certSha256 webpki).isSome
  | .serial .. => node.build.serial
  | .etherMulticast _ => decide (node.build.os = .linux)
  | .ether _ peerMac _ _ =>
    node.build.l2 && etherOs node.build.os && (node.parseMac peerMac).isSome
  | .radio _ => node.build.radio
  | .tcp _ | .unix | .webSocket _ => false

/-- Every installed route carries an identifier under which setup mounts a face for the
very entry that the route points at. -/
def RoutesLand (cfg : ForwarderConfig) (ids : List FaceId) (actions : List SetupAction) : Prop :=
  ∀ route ∈ cfg.routes, ∀ r, node.installRoute ids route = some r →
    ∃ spec, SetupAction.face route.face r.2.faceId spec ∈ actions

variable {node}

@[simp] theorem listenOn_ne_mount (bind : String) (listener : SocketAddr → ListenerSpec)
    (spec : FaceSpec) : node.listenOn bind listener ≠ .mount spec := by
  unfold listenOn
  cases node.parseSocketAddr bind <;> simp

@[simp] theorem listenOn_ne_exit (bind : String) (listener : SocketAddr → ListenerSpec) :
    node.listenOn bind listener ≠ .exit := by
  unfold listenOn
  cases node.parseSocketAddr bind <;> simp

/-- The entries that mount a face are those whose arm mounts one, or is a radio that ends
the process. -/
theorem mounts_iff (entry : FaceConfig) :
    node.mounts entry = true ↔ (∃ spec, node.arm entry = .mount spec) ∨ node.arm entry = .exit := by
  cases entry with
  | udp bind remote =>
    cases remote with
    | none => simp [mounts, arm]
    | some remote => cases h : node.parseSocketAddr remote <;> simp [mounts, arm, h]
  | tcp | unix => simp [mounts, arm]
  | multicast group port interface =>
    cases h : node.parseIpv4 group <;> simp [mounts, arm, h]
  | webSocket bind => cases bind <;> simp [mounts, arm]
  | webTransport remote certSha256 webpki =>
    cases hb : node.build.webtransport <;> cases h : node.clientTls certSha256 webpki <;>
      simp [mounts, arm, hb, h]
  | quic remote certSha256 webpki =>
    cases hb : node.build.quic <;> cases h : node.clientTls certSha256 webpki <;>
      simp [mounts, arm, hb, h]
  | serial path baud => cases hb : node.build.serial <;> simp [mounts, arm, hb]
  | etherMulticast interface =>
    by_cases hos : node.build.os = .linux <;> simp [mounts, arm, hos]
  | ether interface peerMac io bpfObject =>
    cases hb : node.build.l2 && etherOs node.build.os <;> cases h : node.parseMac peerMac <;>
      simp only [mounts, arm, hb, h]
    · simp
    · simp
    · simp
    · by_cases hx : io = some "afxdp" ∧ node.build.os = .linux ∧ node.build.afXdp = true <;>
        simp [hx]
  | radio radios =>
    cases hb : node.build.radio <;> cases h : radios.any node.bringsUp <;>
      simp [mounts, arm, hb, h]

/-- An indexed search in a list, split into its head and its tail. -/
private theorem exists_index_cons {α : Type} {a : α} {as : List α} {idx start : Nat}
    {Q : α → Prop} :
    (∃ i b, (a :: as)[i]? = some b ∧ idx = start + i ∧ Q b) ↔
      (idx = start ∧ Q a) ∨ ∃ i b, as[i]? = some b ∧ idx = start + 1 + i ∧ Q b := by
  constructor
  · rintro ⟨i, b, hb, hidx, hQ⟩
    cases i with
    | zero =>
      obtain rfl : a = b := Option.some.inj hb
      exact Or.inl ⟨hidx, hQ⟩
    | succ i => exact Or.inr ⟨i, b, hb, by omega, hQ⟩
  · rintro (⟨hidx, hQ⟩ | ⟨i, b, hb, hidx, hQ⟩)
    · exact ⟨0, a, rfl, hidx, hQ⟩
    · exact ⟨i + 1, b, hb, by omega, hQ⟩

/-- A setup that goes through to the end has met no fatal entry, and has mounted exactly
the faces of its mounting arms. -/
theorem setupFaces_spec {ids : List FaceId} {fresh : FaceId} {start : Nat}
    {entries : List FaceConfig} {actions : List SetupAction}
    (h : node.setupFaces ids fresh start entries = some actions) :
    (∀ entry ∈ entries, node.arm entry ≠ .exit) ∧
      ∀ idx id spec, SetupAction.face idx id spec ∈ actions ↔
        ∃ i entry, entries[i]? = some entry ∧ idx = start + i ∧
          id = idFor ids fresh idx ∧ node.arm entry = .mount spec := by
  induction entries generalizing start actions with
  | nil =>
    obtain rfl := Option.some.inj h
    refine ⟨fun entry hentry => absurd hentry List.not_mem_nil, fun idx id spec => ?_⟩
    simp
  | cons entry entries ih =>
    unfold setupFaces at h
    cases harm : node.arm entry with
    | exit =>
      rw [harm] at h
      cases h
    | skip =>
      rw [harm] at h
      obtain ⟨hexit, hmem⟩ := ih h
      refine ⟨List.forall_mem_cons.mpr ⟨by rw [harm]; simp, hexit⟩, fun idx id spec => ?_⟩
      rw [hmem, exists_index_cons, harm]
      simp
    | listen l =>
      rw [harm] at h
      obtain ⟨rest, hrest, rfl⟩ := Option.map_eq_some_iff.mp h
      obtain ⟨hexit, hmem⟩ := ih hrest
      refine ⟨List.forall_mem_cons.mpr ⟨by rw [harm]; simp, hexit⟩, fun idx id spec => ?_⟩
      rw [List.mem_cons, hmem, exists_index_cons, harm]
      simp
    | mount spec' =>
      rw [harm] at h
      obtain ⟨rest, hrest, rfl⟩ := Option.map_eq_some_iff.mp h
      obtain ⟨hexit, hmem⟩ := ih hrest
      refine ⟨List.forall_mem_cons.mpr ⟨by rw [harm]; simp, hexit⟩, fun idx id spec => ?_⟩
      rw [List.mem_cons, hmem, exists_index_cons, harm]
      have hhead : SetupAction.face idx id spec =
          SetupAction.face start (idFor ids fresh start) spec' ↔
          idx = start ∧ id = idFor ids fresh idx ∧ Arm.mount spec' = Arm.mount spec := by
        simp only [SetupAction.face.injEq, Arm.mount.injEq]
        constructor
        · rintro ⟨rfl, rfl, rfl⟩
          exact ⟨rfl, rfl, rfl⟩
        · rintro ⟨rfl, rfl, rfl⟩
          exact ⟨rfl, rfl, rfl⟩
      rw [hhead]

/-- A route is installed under the identifier at its index, and only there. -/
theorem installRoute_eq_some_iff {ids : List FaceId} {route : RouteConfig}
    {r : Name × RibRoute} : node.installRoute ids route = some r ↔
      ∃ id, ids[route.face]? = some id ∧
        r = (node.nameOrRoot route.routePrefix,
          ⟨id, Origin.static, route.cost, RouteFlags.childInherit, none⟩) := by
  unfold installRoute
  cases ids[route.face]? with
  | none => simp
  | some id => simp [eq_comm]

/-- The routes land exactly when every entry they point at mounts a face. -/
theorem routesLand_iff (node : Node) (cfg : ForwarderConfig) (pa : PreAlloc) (fresh : FaceId)
    (p : Provisioner) (actions : List SetupAction) (autos : List AutoFace)
    (h : node.runFaceSetup p cfg pa fresh = some (actions, autos)) :
    node.RoutesLand cfg (node.faceIdsByIndex cfg pa) actions ↔
      ∀ route ∈ cfg.routes, ∀ entry, cfg.faces[route.face]? = some entry →
        node.mounts entry = true := by
  obtain ⟨actions', hsetup, hpair⟩ := Option.map_eq_some_iff.mp h
  obtain rfl : actions' = actions := congrArg Prod.fst hpair
  obtain ⟨hexit, hmem⟩ := setupFaces_spec hsetup
  have hlen := node.length_faceIdsByIndex cfg pa
  constructor
  · intro hland route hroute entry hentry
    have hlt : route.face < (node.faceIdsByIndex cfg pa).length :=
      hlen ▸ (List.getElem?_eq_some_iff.mp hentry).1
    have hid := List.getElem?_eq_getElem hlt
    obtain ⟨spec, hface⟩ := hland route hroute _ (installRoute_eq_some_iff.mpr ⟨_, hid, rfl⟩)
    obtain ⟨i, entry', hentry', hidx, -, harm⟩ := (hmem _ _ _).mp hface
    obtain rfl : route.face = i := hidx.trans (Nat.zero_add i)
    have hloop := ForwarderConfig.getElem?_faceConfigs hentry
    obtain rfl : entry' = entry := Option.some.inj (hentry'.symm.trans hloop)
    exact (mounts_iff entry').mpr (Or.inl ⟨spec, harm⟩)
  · intro hmounts route hroute r hinstall
    obtain ⟨id, hid, rfl⟩ := installRoute_eq_some_iff.mp hinstall
    have hlt : route.face < cfg.faces.length := hlen ▸ (List.getElem?_eq_some_iff.mp hid).1
    have hentry : cfg.faces[route.face]? = some cfg.faces[route.face] :=
      List.getElem?_eq_getElem hlt
    have hloop := ForwarderConfig.getElem?_faceConfigs hentry
    rcases (mounts_iff _).mp (hmounts route hroute _ hentry) with ⟨spec, harm⟩ | harm
    · refine ⟨spec, (hmem _ _ _).mpr ⟨route.face, _, hloop, (Nat.zero_add _).symm, ?_, harm⟩⟩
      rw [idFor, hid, Option.getD_some]
    · exact absurd harm (hexit _ (List.mem_of_getElem? hloop))

end Node

/-- What setup does for the entries of the sample configuration. -/
def sampleActions : List SetupAction :=
  [.listener 0 (.udp ⟨[0, 0, 0, 0], 6363⟩), .face 1 ⟨1⟩ (.multicastUdp 0 56363 0xe00017aa),
    .face 2 ⟨3⟩ (.multicastEther "eth0")]

/-- A route to the multicast entry lands on its face. -/
theorem sampleNode_routesLand :
    sampleNode.runFaceSetup ⟨fun _ => [], fun _ => []⟩
        { sampleConfig "both" with routes := [⟨"/a", 1, 10⟩] } samplePreAlloc ⟨99⟩ =
        some (sampleActions, [.ether (some ⟨4⟩) "eth0", .udp (some ⟨2⟩) "eth0" 0x0a000001 false]) ∧
      sampleNode.RoutesLand { sampleConfig "both" with routes := [⟨"/a", 1, 10⟩] }
        (sampleNode.faceIdsByIndex { sampleConfig "both" with routes := [⟨"/a", 1, 10⟩] }
          samplePreAlloc) sampleActions := by
  refine ⟨rfl, (Node.routesLand_iff sampleNode _ samplePreAlloc ⟨99⟩ ⟨fun _ => [], fun _ => []⟩
    sampleActions _ rfl).mpr ?_⟩
  intro route hroute entry hentry
  obtain rfl := List.mem_singleton.mp hroute
  obtain rfl : FaceConfig.multicast "224.0.23.170" 56363 none = entry := Option.some.inj hentry
  rfl

/-- A route to the UDP listener of the sample configuration lands on no face. -/
theorem sampleNode_not_routesLand :
    sampleNode.runFaceSetup ⟨fun _ => [], fun _ => []⟩ (sampleConfig "both") samplePreAlloc ⟨99⟩ =
        some (sampleActions, [.ether (some ⟨4⟩) "eth0", .udp (some ⟨2⟩) "eth0" 0x0a000001 false]) ∧
      ¬ sampleNode.RoutesLand (sampleConfig "both")
        (sampleNode.faceIdsByIndex (sampleConfig "both") samplePreAlloc) sampleActions := by
  refine ⟨rfl, fun h => ?_⟩
  obtain ⟨spec, hface⟩ := h ⟨"/a", 0, 10⟩ (List.mem_singleton_self _)
    ([⟨8, [97]⟩], ⟨⟨5⟩, Origin.static, 10, RouteFlags.childInherit, none⟩) rfl
  simp [sampleActions] at hface

end NdnFwd
