import NdnFwd.Models.Startup.ListTables

/-!
# What is left of a startup

`main` installs the routes of the configuration, then the nexthops of the demo CA. As
long as nobody changes those routes under their own keys, their nexthops stay. The
nexthops of the CA stay exactly as long as no recomputation of their names finds the RIB
without a route on the face of the CA.
-/

namespace NdnFwd

/-- What `DemoCaSpawn` keeps for the FIB. -/
structure DemoCaSpawn where
  faceId : FaceId
  caPrefix : Name
  certNamespace : Option Name
  deriving DecidableEq, Repr

/-- `DEMO_CA_FACE_ID`. -/
def demoCaFaceId : FaceId := ⟨0xffff0002⟩

/-- The value of a trailing `CA`. -/
def caComponent : Bytes := [67, 65]

/-- The namespace the CA issues under: its prefix without a trailing `CA`, unless that
leaves nothing. -/
def certNamespace (caPrefix : Name) : Option Name :=
  match caPrefix.getLast? with
  | some last =>
    if last.value = caComponent ∧ 1 < caPrefix.length then some caPrefix.dropLast else none
  | none => none

namespace DemoCaSpawn

/-- The FIB entries that `main` makes for the CA. -/
def nexthops (spawn : DemoCaSpawn) : List (Name × FaceId) :=
  (spawn.caPrefix :: spawn.certNamespace.toList).map fun n => (n, spawn.faceId)

end DemoCaSpawn

/-- What a startup leaves behind, as far as nexthops are concerned. -/
structure Started (eng : RouteEngine) where
  tables : eng.Tables
  routes : List (Name × RibRoute)
  demoCa : Option DemoCaSpawn

namespace Started

variable {eng : RouteEngine} (started : Started eng)

/-- The nexthops of the configured routes. -/
def routeNexthops : List (Name × FaceId) := started.routes.map fun e => (e.1, e.2.faceId)

/-- The nexthops of the demo CA. -/
def caNexthops : List (Name × FaceId) := started.demoCa.toList.flatMap DemoCaSpawn.nexthops

/-- Every nexthop that `main` installs. -/
def nexthops : List (Name × FaceId) := started.routeNexthops ++ started.caNexthops

/-- The keys of the startup routes in the RIB. -/
def routeKeys : List RouteKey := started.routes.map fun e => e.2.key e.1

end Started

namespace RouteEngine

variable (eng : RouteEngine)

/-- The routes of the configuration, each added to the RIB and applied to the FIB. -/
def installRoutes (s : eng.Tables) (routes : List (Name × RibRoute)) : eng.Tables :=
  eng.machine.run s (routes.map fun e => .add e.1 e.2)

/-- The nexthops of the CA, added to the FIB alone. -/
def installDemoCa (fib : eng.Fib) (spawn : DemoCaSpawn) : eng.Fib :=
  let fib := eng.addNexthop fib spawn.caPrefix spawn.faceId 0
  match spawn.certNamespace with
  | some ns => eng.addNexthop fib ns spawn.faceId 1
  | none => fib

/-- The nexthops are in the FIB after every part of the run. -/
def Survives (s : eng.Tables) (nexthops : List (Name × FaceId)) (ops : List RibOp) : Prop :=
  ∀ nh ∈ nexthops, ∀ pre, pre <+: ops → eng.HasNexthop (eng.machine.run s pre).2 nh.1 nh.2

end RouteEngine

namespace Node

variable (node : Node)

/-- `demo_ca::prepare`. -/
def prepare (cfg : DemoCaConfig) : Except StartupError DemoCaSpawn :=
  match node.parseName cfg.caPrefix with
  | none => .error (.invalidCaPrefix cfg.caPrefix)
  | some caPrefix =>
    if node.ephemeralKeychain cfg.identity then
      .ok ⟨demoCaFaceId, caPrefix, certNamespace caPrefix⟩
    else .error (.keychainInitFailed cfg.identity)

/-- The CA, when it is switched on. -/
def demoCaSpawn (cfg : ForwarderConfig) : Except StartupError (Option DemoCaSpawn) :=
  if cfg.demoCa.enabled then (node.prepare cfg.demoCa).map some else .ok none

/-- The way `main` fills the tables: the CA is prepared and discovery takes its
identifiers before any route is installed, the CA is wired after the last one. -/
def startup (eng : RouteEngine) (cfg : ForwarderConfig) (next : Nat) (s : eng.Tables) :
    Except StartupError (Started eng) := do
  let demoCa ← node.demoCaSpawn cfg
  let pa ← node.preAllocate cfg next
  let routes := node.installedRoutes cfg (node.faceIdsByIndex cfg pa)
  let s := eng.installRoutes s routes
  return ⟨(s.1, demoCa.elim s.2 (eng.installDemoCa s.2)), routes, demoCa⟩

end Node

namespace RouteEngine

variable {eng : RouteEngine}

/-- Wiring the CA adds its nexthops and takes none away. -/
theorem hasNexthop_installDemoCa (h : eng.Laws) (fib : eng.Fib) (spawn : DemoCaSpawn) (n : Name)
    (f : FaceId) : eng.HasNexthop (eng.installDemoCa fib spawn) n f ↔
      (n, f) ∈ spawn.nexthops ∨ eng.HasNexthop fib n f := by
  obtain ⟨faceId, caPrefix, certNamespace⟩ := spawn
  cases certNamespace with
  | none =>
    simp only [installDemoCa, DemoCaSpawn.nexthops, h.hasNexthop_addNexthop, Option.toList_none,
      List.map_cons, List.map_nil, List.mem_singleton, Prod.mk.injEq]
  | some ns =>
    simp only [installDemoCa, DemoCaSpawn.nexthops, h.hasNexthop_addNexthop, Option.toList_some,
      List.map_cons, List.map_nil, List.mem_cons, List.not_mem_nil, or_false, Prod.mk.injEq]
    tauto

end RouteEngine

namespace Node

variable {node : Node} {eng : RouteEngine} {cfg : ForwarderConfig} {next : Nat} {s : eng.Tables}
  {started : Started eng}

/-- A startup that goes through has put its routes into the RIB, and its CA on top of what
they made of the FIB. -/
theorem startup_ok (h : node.startup eng cfg next s = .ok started) :
    started.tables.1 = (eng.installRoutes s started.routes).1 ∧
      started.tables.2 = started.demoCa.elim (eng.installRoutes s started.routes).2
        (eng.installDemoCa (eng.installRoutes s started.routes).2) := by
  unfold startup at h
  cases hca : node.demoCaSpawn cfg with
  | error e =>
    rw [hca] at h
    cases h
  | ok demoCa =>
    cases hpa : node.preAllocate cfg next with
    | error e =>
      rw [hca, hpa] at h
      cases h
    | ok pa =>
      rw [hca, hpa] at h
      obtain rfl := Except.ok.inj h
      exact ⟨rfl, rfl⟩

/-- The FIB of a startup has the nexthops of the CA and those of the routes. -/
theorem hasNexthop_startup (hl : eng.Laws) (h : node.startup eng cfg next s = .ok started)
    (n : Name) (f : FaceId) : eng.HasNexthop started.tables.2 n f ↔
      (n, f) ∈ started.caNexthops ∨ eng.HasNexthop (eng.installRoutes s started.routes).2 n f := by
  rw [(startup_ok h).2, Started.caNexthops]
  cases started.demoCa with
  | none => simp
  | some spawn =>
    rw [Option.elim_some, RouteEngine.hasNexthop_installDemoCa hl, Option.toList_some,
      List.flatMap_singleton]

/-- Every startup route is tracked by the RIB and has its nexthop in the FIB. -/
theorem startup_route (hl : eng.Laws) (h : node.startup eng cfg next s = .ok started)
    {e : Name × RibRoute} (he : e ∈ started.routes) :
    eng.Tracks (e.2.key e.1) started.tables.1 ∧
      eng.HasNexthop started.tables.2 e.1 e.2.faceId := by
  obtain ⟨htracks, hhop⟩ := RouteEngine.run_add hl s started.routes he
  refine ⟨?_, (hasNexthop_startup hl h _ _).mpr (Or.inr hhop)⟩
  rw [(startup_ok h).1]
  exact htracks

/-- A startup route outlives every change that is not made under its own key. -/
theorem startup_route_survives (hl : eng.Laws) (h : node.startup eng cfg next s = .ok started)
    {e : Name × RibRoute} (he : e ∈ started.routes) {ops : List RibOp}
    (hops : ∀ op ∈ ops, op.key ∉ started.routeKeys) :
    eng.HasNexthop (eng.machine.run started.tables ops).2 e.1 e.2.faceId := by
  obtain ⟨htracks, hhop⟩ := startup_route hl h he
  have hkey : e.2.key e.1 ∈ started.routeKeys := List.mem_map_of_mem he
  refine (RouteEngine.hasNexthop_run hl htracks hhop
    (P := fun op => op.key ∉ started.routeKeys) ?_ hops).2
  intro rib op ht hop
  exact RouteEngine.tracks_change hl ht fun heq => hop (heq ▸ hkey)

/-- The nexthops of a startup survive exactly when every later change retains those of
the CA. -/
theorem startup_survives_iff (node : Node) (eng : RouteEngine) (hl : eng.Laws)
    (cfg : ForwarderConfig) (next : Nat) (s : eng.Tables) (started : Started eng)
    (h : node.startup eng cfg next s = .ok started) (ops : List RibOp)
    (hops : ∀ op ∈ ops, op.key ∉ started.routeKeys) :
    eng.Survives started.tables started.nexthops ops ↔
      ∀ nh ∈ started.caNexthops, ∀ v ∈ eng.machine.visits started.tables ops,
        eng.Retains v.1.1 v.2 nh.1 nh.2 := by
  have hca : ∀ nh ∈ started.caNexthops, eng.HasNexthop started.tables.2 nh.1 nh.2 := by
    intro nh hnh
    exact (hasNexthop_startup hl h _ _).mpr (Or.inl hnh)
  constructor
  · intro hall nh hnh
    exact (RouteEngine.hasNexthop_persists_iff hl (hca nh hnh) ops).mp
      (hall nh (List.mem_append_right _ hnh))
  · intro hret nh hnh
    rcases List.mem_append.mp hnh with hroute | hnh
    · obtain ⟨e, he, rfl⟩ := List.mem_map.mp hroute
      intro pre hpre
      exact startup_route_survives hl h he fun op hop => hops op (hpre.subset hop)
    · exact (RouteEngine.hasNexthop_persists_iff hl (hca nh hnh) ops).mpr (hret nh hnh)

end Node

/-- A demo CA next to a route over the first multicast entry. -/
def sampleCaConfig : ForwarderConfig :=
  { sampleConfig "udp" with routes := [⟨"/a", 1, 10⟩], demoCa := ⟨true, "/demo/CA", "/demo"⟩ }

/-- A demo CA under `/demo/CA`. -/
def sampleCa : DemoCaSpawn :=
  ⟨demoCaFaceId, [⟨8, [100, 101, 109, 111]⟩, ⟨8, [67, 65]⟩], some [⟨8, [100, 101, 109, 111]⟩]⟩

/-- The startup of that configuration, from empty tables. -/
def sampleStarted : Started ListTables.engine :=
  let routes : List (Name × RibRoute) :=
    [([⟨8, [97]⟩], ⟨⟨1⟩, Origin.static, 10, RouteFlags.childInherit, none⟩)]
  let s := ListTables.engine.installRoutes ListTables.empty routes
  ⟨(s.1, ListTables.engine.installDemoCa s.2 sampleCa), routes, some sampleCa⟩

/-- The registration of a name by an application on another face. -/
def sampleRegistration (n : Name) : RibOp := .add n ⟨⟨7⟩, 0, 0, RouteFlags.childInherit, none⟩

/-- An application may register the name of the route. -/
theorem sampleStarted_survives :
    sampleNode.startup ListTables.engine sampleCaConfig 1 ListTables.empty = .ok sampleStarted ∧
      ListTables.engine.Survives sampleStarted.tables sampleStarted.nexthops
        [sampleRegistration [⟨8, [97]⟩]] := by
  have hstart : sampleNode.startup ListTables.engine sampleCaConfig 1 ListTables.empty =
      .ok sampleStarted := rfl
  refine ⟨hstart, (Node.startup_survives_iff sampleNode ListTables.engine
    ListTables.engine_laws sampleCaConfig 1 ListTables.empty sampleStarted hstart _ ?_).mpr ?_⟩
  · intro op hop
    obtain rfl := List.mem_singleton.mp hop
    decide
  · intro nh hnh v hv hrec
    obtain rfl := List.mem_singleton.mp hv
    have hname : nh.1 = [⟨8, [97]⟩] := hrec
    have hca : ∀ nh ∈ sampleStarted.caNexthops, nh.1 ≠ [⟨8, [97]⟩] := by decide
    exact absurd hname (hca nh hnh)

/-- An application that registers the name of the CA takes it away from the CA. -/
theorem sampleStarted_not_survives :
    sampleNode.startup ListTables.engine sampleCaConfig 1 ListTables.empty = .ok sampleStarted ∧
      (∀ op ∈ [sampleRegistration sampleCa.caPrefix], op.key ∉ sampleStarted.routeKeys) ∧
      ¬ ListTables.engine.Survives sampleStarted.tables sampleStarted.nexthops
        [sampleRegistration sampleCa.caPrefix] := by
  refine ⟨rfl, by decide, fun h => ?_⟩
  obtain ⟨cost, hcost⟩ := h (sampleCa.caPrefix, demoCaFaceId) (by decide)
    [sampleRegistration sampleCa.caPrefix] (List.prefix_refl _)
  have hentry : (demoCaFaceId, cost) ∈ [((⟨7⟩ : FaceId), 0)] := hcost
  simp [demoCaFaceId] at hentry

end NdnFwd
