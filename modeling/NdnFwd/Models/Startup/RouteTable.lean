import NdnFwd.Models.Startup.Survival

/-!
# What the route loop leaves in the RIB

An entry whose index is out of range adds nothing. An entry whose prefix does not parse does:
its route goes to the root name, where it attracts every Interest. The loop installs what the
configuration says as long as there is no such entry within range, and no two entries give one
face two costs for one name.
-/

namespace NdnFwd

namespace RouteEngine

variable {eng : RouteEngine}

/-- After routes were added in turn, what is in the RIB is one of them, or was there before and
has been left alone. -/
theorem mem_routes_installRoutes (h : eng.Laws) (s : eng.Tables)
    {routes : List (Name × RibRoute)} {n : Name} {r : RibRoute}
    (hr : r ∈ eng.routes (eng.installRoutes s routes).1 n) :
    (n, r) ∈ routes ∨ (r ∈ eng.routes s.1 n ∧ ∀ e ∈ routes, e.2.key e.1 ≠ r.key n) := by
  induction routes generalizing s with
  | nil => exact Or.inr ⟨hr, fun e he => absurd he List.not_mem_nil⟩
  | cons e routes ih =>
    rcases ih (eng.step s (.add e.1 e.2)) hr with hin | ⟨hhere, hkeys⟩
    · exact Or.inl (List.mem_cons_of_mem e hin)
    · rcases (h.mem_routes_add ..).mp hhere with ⟨hn, hre⟩ | ⟨hbefore, hkey⟩
      · obtain rfl : (n, r) = e := Prod.ext hn hre
        exact Or.inl (List.mem_cons_self ..)
      · exact Or.inr ⟨hbefore, List.forall_mem_cons.mpr ⟨hkey.symm, hkeys⟩⟩

/-- The RIB has at most one route under the key. -/
def AtMostOne (eng : RouteEngine) (key : RouteKey) (rib : eng.Rib) : Prop :=
  ∀ r ∈ eng.routes rib key.name, ∀ r' ∈ eng.routes rib key.name,
    r.key key.name = key → r'.key key.name = key → r = r'

private theorem atMostOne_add (h : eng.Laws) {key : RouteKey} {rib : eng.Rib} (n : Name)
    (r : RibRoute)
    (hone : eng.AtMostOne key rib ∨ key = r.key n) : eng.AtMostOne key (eng.add rib n r) := by
  by_cases hkey : key = r.key n
  · have hself : ∀ r' ∈ eng.routes (eng.add rib n r) key.name, r'.key key.name = key → r' = r := by
      intro r' hr' hk
      rcases (h.mem_routes_add ..).mp hr' with ⟨-, rfl⟩ | ⟨-, hne⟩
      · rfl
      · exact absurd (hk.trans hkey) hne
    intro r₁ h₁ r₂ h₂ hk₁ hk₂
    rw [hself r₁ h₁ hk₁, hself r₂ h₂ hk₂]
  · have hbefore : ∀ r' ∈ eng.routes (eng.add rib n r) key.name, r'.key key.name = key →
        r' ∈ eng.routes rib key.name := by
      intro r' hr' hk
      rcases (h.mem_routes_add ..).mp hr' with ⟨hn, rfl⟩ | ⟨hin, -⟩
      · exact absurd (hn ▸ hk.symm) hkey
      · exact hin
    intro r₁ h₁ r₂ h₂ hk₁ hk₂
    exact hone.resolve_right hkey r₁ (hbefore r₁ h₁ hk₁) r₂ (hbefore r₂ h₂ hk₂) hk₁ hk₂

/-- Every route that was added is the only one under its key, from then on. -/
theorem atMostOne_installRoutes (h : eng.Laws) (s : eng.Tables)
    {routes : List (Name × RibRoute)} {e : Name × RibRoute} (he : e ∈ routes) :
    eng.AtMostOne (e.2.key e.1) (eng.installRoutes s routes).1 := by
  obtain ⟨before, after, rfl⟩ := List.append_of_mem he
  rw [installRoutes, List.map_append, List.map_cons, Machine.run_append, Machine.run_cons]
  generalize eng.machine.run s (before.map fun e => .add e.1 e.2) = s'
  refine eng.machine.run_invariant (I := fun s => eng.AtMostOne (e.2.key e.1) s.1)
    (P := fun op => ∃ n r, op = .add n r) ?_ (atMostOne_add h _ _ (Or.inr rfl)) ?_
  · rintro s _ hone ⟨n, r, rfl⟩
    exact atMostOne_add h n r (Or.inl hone)
  · intro op hop
    obtain ⟨e', -, rfl⟩ := List.mem_map.mp hop
    exact ⟨_, _, rfl⟩

/-- A route that was added is still there, unless another one has replaced it. -/
theorem mem_installRoutes_self (h : eng.Laws) (s : eng.Tables) {routes : List (Name × RibRoute)}
    {e : Name × RibRoute} (he : e ∈ routes)
    (hsame : ∀ e' ∈ routes, e'.2.key e'.1 = e.2.key e.1 → e'.2 = e.2) :
    e.2 ∈ eng.routes (eng.installRoutes s routes).1 e.1 := by
  obtain ⟨r, hr, hkey⟩ := (run_add h s routes he).1
  rcases mem_routes_installRoutes h s hr with hin | ⟨-, hkeys⟩
  · have hre := hsame _ hin hkey
    rw [← hre]
    exact hr
  · exact absurd hkey.symm (hkeys e he)

end RouteEngine

/-- The route that an entry asks for. -/
def RouteConfig.ribRoute (route : RouteConfig) (id : FaceId) : RibRoute :=
  ⟨id, Origin.static, route.cost, RouteFlags.childInherit, none⟩

namespace Node

variable (node : Node)

/-- The entry asks for a route under the name over the face. -/
def Spells (ids : List FaceId) (route : RouteConfig) (n : Name) (id : FaceId) : Prop :=
  node.parseName route.routePrefix = some n ∧ ids[route.face]? = some id

/-- The loop over the entries. -/
def routeLoop (eng : RouteEngine) (cfg : ForwarderConfig) (ids : List FaceId) (s : eng.Tables) :
    eng.Tables := eng.installRoutes s (node.installedRoutes cfg ids)

/-- The loop installs exactly what the entries say, and skips what does not parse. -/
structure InstallsExactly (eng : RouteEngine) (cfg : ForwarderConfig) (ids : List FaceId)
    (s : eng.Tables) : Prop where
  installed : ∀ route ∈ cfg.routes, ∀ n id, node.Spells ids route n id →
    route.ribRoute id ∈ eng.routes (node.routeLoop eng cfg ids s).1 n
  spelled : ∀ n r, r ∈ eng.routes (node.routeLoop eng cfg ids s).1 n →
    r ∈ eng.routes s.1 n ∨
      ∃ route ∈ cfg.routes, ∃ id, node.Spells ids route n id ∧ r = route.ribRoute id
  skipped : ∀ route ∈ cfg.routes, node.parseName route.routePrefix = none →
    node.installRoute ids route = none

/-- Every entry within range has a prefix that parses, and no two entries give one face two
costs for one name. -/
structure WellSpelled (cfg : ForwarderConfig) (ids : List FaceId) : Prop where
  parses : ∀ route ∈ cfg.routes, route.face < ids.length →
    (node.parseName route.routePrefix).isSome = true
  oneCost : ∀ route ∈ cfg.routes, ∀ route' ∈ cfg.routes, ∀ n id, node.Spells ids route n id →
    node.Spells ids route' n id → route.cost = route'.cost

variable {node} {eng : RouteEngine} {cfg : ForwarderConfig} {ids : List FaceId}

/-- An entry that asks for a route adds it. -/
theorem Spells.mem_installedRoutes {route : RouteConfig} (hroute : route ∈ cfg.routes) {n : Name}
    {id : FaceId} (h : node.Spells ids route n id) :
    (n, route.ribRoute id) ∈ node.installedRoutes cfg ids := by
  obtain ⟨hname, hid⟩ := h
  refine List.mem_filterMap.mpr ⟨route, hroute, installRoute_eq_some_iff.mpr ⟨id, hid, ?_⟩⟩
  rw [nameOrRoot, hname, Option.getD_some, RouteConfig.ribRoute]

/-- With well-spelled entries every route that is added is one that an entry asks for. -/
theorem WellSpelled.exists_spells (h : node.WellSpelled cfg ids) {e : Name × RibRoute}
    (he : e ∈ node.installedRoutes cfg ids) :
    ∃ route ∈ cfg.routes, ∃ id, node.Spells ids route e.1 id ∧ e.2 = route.ribRoute id := by
  obtain ⟨route, hroute, hinstall⟩ := List.mem_filterMap.mp he
  obtain ⟨id, hid, rfl⟩ := installRoute_eq_some_iff.mp hinstall
  obtain ⟨n, hn⟩ := Option.isSome_iff_exists.mp
    (h.parses route hroute (List.getElem?_eq_some_iff.mp hid).1)
  refine ⟨route, hroute, id, ⟨?_, hid⟩, rfl⟩
  rw [nameOrRoot, hn, Option.getD_some]

/-- The loop installs exactly what the entries say if and only if they are well spelled. -/
theorem installsExactly_iff (node : Node) (eng : RouteEngine) (h : eng.Laws)
    (cfg : ForwarderConfig) (ids : List FaceId) (s : eng.Tables) :
    node.InstallsExactly eng cfg ids s ↔ node.WellSpelled cfg ids := by
  constructor
  · intro hexact
    constructor
    · intro route hroute hlt
      by_contra hparse
      have hskip := hexact.skipped route hroute (Option.not_isSome_iff_eq_none.mp hparse)
      rw [installRoute, List.getElem?_eq_getElem hlt] at hskip
      cases hskip
    · intro route hroute route' hroute' n id hspells hspells'
      have hone := RouteEngine.atMostOne_installRoutes h s (hspells.mem_installedRoutes hroute)
      have heq := hone _ (hexact.installed route hroute n id hspells) _
        (hexact.installed route' hroute' n id hspells') rfl rfl
      exact congrArg RibRoute.cost heq
  · intro hwell
    constructor
    · intro route hroute n id hspells
      refine RouteEngine.mem_installRoutes_self h s (hspells.mem_installedRoutes hroute) ?_
      intro e he hkey
      obtain ⟨route', hroute', id', hspells', hr⟩ := hwell.exists_spells he
      rw [hr] at hkey ⊢
      have hn : e.1 = n := congrArg RouteKey.name hkey
      obtain rfl : id' = id := congrArg RouteKey.faceId hkey
      rw [hn] at hspells'
      have hcost := hwell.oneCost route hroute route' hroute' n id' hspells hspells'
      rw [RouteConfig.ribRoute, RouteConfig.ribRoute, hcost]
    · intro n r hr
      rcases RouteEngine.mem_routes_installRoutes h s hr with hin | ⟨hbefore, -⟩
      · exact Or.inr (hwell.exists_spells hin)
      · exact Or.inl hbefore
    · intro route hroute hparse
      rw [installRoute]
      cases hid : ids[route.face]? with
      | none => rfl
      | some id =>
        have hsome := hwell.parses route hroute (List.getElem?_eq_some_iff.mp hid).1
        rw [hparse] at hsome
        cases hsome

end Node

section Samples

/-- The sample configuration with other routes. -/
def routesConfig (routes : List RouteConfig) : ForwarderConfig :=
  { sampleConfig "both" with routes := routes }

/-- Its identifiers. -/
def sampleIds : List FaceId := sampleNode.faceIdsByIndex (sampleConfig "both") samplePreAlloc

/-- A route, and an entry that does not parse and is out of range. -/
theorem sampleNode_installsExactly :
    sampleNode.InstallsExactly ListTables.engine (routesConfig [⟨"/a", 1, 10⟩, ⟨"a", 9, 0⟩])
      sampleIds ListTables.empty := by
  refine (Node.installsExactly_iff sampleNode ListTables.engine ListTables.engine_laws _ sampleIds
    ListTables.empty).mpr ⟨?_, ?_⟩
  · intro route hroute
    rcases List.mem_pair.mp hroute with rfl | rfl <;> decide
  · rintro route hroute route' hroute' n id ⟨hname, -⟩ ⟨hname', -⟩
    have hfirst : ∀ route ∈ [(⟨"/a", 1, 10⟩ : RouteConfig), ⟨"a", 9, 0⟩],
        (sampleNode.parseName route.routePrefix).isSome = true → route.cost = 10 := by decide
    rw [hfirst route hroute (by rw [hname]; rfl), hfirst route' hroute' (by rw [hname']; rfl)]

/-- A prefix without its slash becomes a default route. -/
theorem sampleNode_installs_default :
    (⟨⟨1⟩, Origin.static, 10, RouteFlags.childInherit, none⟩ : RibRoute) ∈
        ListTables.engine.routes (sampleNode.routeLoop ListTables.engine
          (routesConfig [⟨"a", 1, 10⟩]) sampleIds ListTables.empty).1 [] ∧
      ¬sampleNode.InstallsExactly ListTables.engine (routesConfig [⟨"a", 1, 10⟩]) sampleIds
        ListTables.empty := by
  refine ⟨List.mem_singleton_self _, fun h => ?_⟩
  have hskip := h.skipped ⟨"a", 1, 10⟩ (List.mem_singleton_self _) rfl
  cases hskip

end Samples

end NdnFwd
