import NdnFwd.Core.View
import NdnFwd.Models.Startup.Routes

/-!
# The nexthops a startup installs

Routes of the configuration go through the RIB, the nexthops of the demo CA straight into
the FIB. The engine keeps the FIB as a view of the RIB: each registration recomputes the
entries it affects and replaces them. A route that the RIB tracks is in every recomputed
entry. A nexthop that only the FIB knows is gone after the first recomputation, unless
the RIB happens to have a route on the same face.
-/

namespace NdnFwd

/-- A route reaches down to the names below its own. -/
def RibRoute.inherits (r : RibRoute) : Bool := r.flags.testBit 0

/-- A registration or removal of a route, by an application or an operator. -/
inductive RibOp
  | add (name : Name) (r : RibRoute)
  | remove (name : Name) (faceId : FaceId) (origin : Nat)

/-- What identifies a route in the RIB. -/
structure RouteKey where
  name : Name
  faceId : FaceId
  origin : Nat
  deriving DecidableEq

/-- What tells the route from others under its name. -/
def RibRoute.key (name : Name) (r : RibRoute) : RouteKey := ⟨name, r.faceId, r.origin⟩

namespace RibOp

/-- The route that is added or removed. -/
def key : RibOp → RouteKey
  | add name r => r.key name
  | remove name faceId origin => ⟨name, faceId, origin⟩

/-- The name under which it is. -/
def name (op : RibOp) : Name := op.key.name

end RibOp

/-- The tables of the engine, as `main` and the management handlers use them. -/
structure RouteEngine where
  Rib : Type
  Fib : Type
  add : Rib → Name → RibRoute → Rib
  remove : Rib → Name → FaceId → Nat → Rib
  applyToFib : Rib → Name → Fib → Fib
  addNexthop : Fib → Name → FaceId → Nat → Fib
  routes : Rib → Name → List RibRoute
  nexthops : Fib → Name → List (FaceId × Nat)
  /-- The names whose FIB entry `apply_to_fib` of a name recomputes. -/
  recomputes : Rib → Name → Name → Prop

namespace RouteEngine

variable (eng : RouteEngine)

/-- The FIB entry of the name has a nexthop on the face. -/
def HasNexthop (fib : eng.Fib) (n : Name) (f : FaceId) : Prop :=
  ∃ cost, (f, cost) ∈ eng.nexthops fib n

/-- The RIB has a route on the face, at the name or inherited from a name above it. -/
def Effective (rib : eng.Rib) (n : Name) (f : FaceId) : Prop :=
  (∃ r ∈ eng.routes rib n, r.faceId = f) ∨
    ∃ a, a <+: n ∧ a ≠ n ∧ ∃ r ∈ eng.routes rib a, r.inherits = true ∧ r.faceId = f

/-- What `main` relies on: routes are keyed by name, face and origin; `apply_to_fib`
recomputes at least the entry of its name, and replaces every entry it recomputes. -/
structure Laws : Prop where
  mem_routes_add : ∀ rib n r m r', r' ∈ eng.routes (eng.add rib n r) m ↔
    (m = n ∧ r' = r) ∨ (r' ∈ eng.routes rib m ∧ r'.key m ≠ r.key n)
  mem_routes_remove : ∀ rib n f o m r', r' ∈ eng.routes (eng.remove rib n f o) m ↔
    r' ∈ eng.routes rib m ∧ r'.key m ≠ ⟨n, f, o⟩
  hasNexthop_addNexthop : ∀ fib n f cost m f', eng.HasNexthop (eng.addNexthop fib n f cost) m f' ↔
    (m = n ∧ f' = f) ∨ eng.HasNexthop fib m f'
  recomputes_self : ∀ rib n, eng.recomputes rib n n
  hasNexthop_applyToFib : ∀ rib n fib m f, eng.HasNexthop (eng.applyToFib rib n fib) m f ↔
    (eng.recomputes rib n m ∧ eng.Effective rib m f) ∨
      (¬ eng.recomputes rib n m ∧ eng.HasNexthop fib m f)

/-- The two tables. -/
abbrev Tables : Type := eng.Rib × eng.Fib

/-- The change of the RIB. -/
def change (rib : eng.Rib) : RibOp → eng.Rib
  | .add n r => eng.add rib n r
  | .remove n f o => eng.remove rib n f o

/-- A change of the RIB, followed by `apply_to_fib` on its name. -/
def step (s : eng.Tables) (op : RibOp) : eng.Tables :=
  let rib := eng.change s.1 op
  (rib, eng.applyToFib rib op.name s.2)

/-- The operations, one after the other. -/
def machine : Machine eng.Tables RibOp Empty := ⟨fun s op => (eng.step s op, [])⟩

/-- The RIB and what its recomputations make of the FIB. -/
def viewSpec : ViewSpec eng.Rib Name FaceId RibOp where
  update := eng.change
  derive rib n := {f | eng.Effective rib n f}
  refreshes rib op n := eng.recomputes rib op.name n

/-- The tables as a base and a view of it. -/
def viewed (s : eng.Tables) : Viewed eng.Rib Name FaceId :=
  ⟨s.1, fun n => {f | eng.HasNexthop s.2 n f}⟩

variable {eng}

/-- The engine keeps the FIB as a view of the RIB. -/
theorem viewed_step (h : eng.Laws) (s : eng.Tables) (op : RibOp) :
    eng.viewed (eng.step s op) = eng.viewSpec.step (eng.viewed s) op := by
  simp only [viewed, step, ViewSpec.step, viewSpec, Viewed.mk.injEq, true_and]
  funext n
  ext f
  exact h.hasNexthop_applyToFib ..

/-- The facts of the view after a run are the nexthops of the FIB. -/
theorem viewed_run (h : eng.Laws) (s : eng.Tables) (ops : List RibOp) :
    eng.viewed (eng.machine.run s ops) = eng.viewSpec.machine.run (eng.viewed s) ops :=
  eng.machine.run_map (viewed_step h) s ops

/-- The RIB has a route under the key. -/
def Tracks (eng : RouteEngine) (key : RouteKey) (rib : eng.Rib) : Prop :=
  ∃ r ∈ eng.routes rib key.name, r.key key.name = key

/-- Adding a route replaces a route under its own key only. -/
theorem tracks_add (h : eng.Laws) {key : RouteKey} {rib : eng.Rib} (n : Name) (r : RibRoute)
    (ht : eng.Tracks key rib ∨ key = r.key n) : eng.Tracks key (eng.add rib n r) := by
  by_cases hkey : key = r.key n
  · subst hkey
    exact ⟨r, (h.mem_routes_add ..).mpr (Or.inl ⟨rfl, rfl⟩), rfl⟩
  · obtain ⟨r', hr', he⟩ := ht.resolve_right hkey
    exact ⟨r', (h.mem_routes_add ..).mpr (Or.inr ⟨hr', fun hk => hkey (he.symm.trans hk)⟩), he⟩

/-- A change under another key leaves a tracked route in place. -/
theorem tracks_change (h : eng.Laws) {key : RouteKey} {rib : eng.Rib} (ht : eng.Tracks key rib)
    {op : RibOp} (hop : op.key ≠ key) : eng.Tracks key (eng.change rib op) := by
  cases op with
  | add n r => exact tracks_add h n r (Or.inl ht)
  | remove n f o =>
    obtain ⟨r, hr, he⟩ := ht
    exact ⟨r, (h.mem_routes_remove ..).mpr ⟨hr, fun hk => hop (hk.symm.trans he)⟩, he⟩

/-- The RIB derives a nexthop from every route it tracks. -/
theorem effective_of_tracks {key : RouteKey} {rib : eng.Rib} (ht : eng.Tracks key rib) :
    eng.Effective rib key.name key.faceId := by
  obtain ⟨r, hr, he⟩ := ht
  exact Or.inl ⟨r, hr, congrArg RouteKey.faceId he⟩

/-- A tracked route keeps its nexthop as long as nothing changes it under its own key. -/
theorem hasNexthop_run (h : eng.Laws) {key : RouteKey} {s : eng.Tables}
    (ht : eng.Tracks key s.1) (hs : eng.HasNexthop s.2 key.name key.faceId) {P : RibOp → Prop}
    (hkeep : ∀ rib op, eng.Tracks key rib → P op → eng.Tracks key (eng.change rib op))
    {ops : List RibOp} (hops : ∀ op ∈ ops, P op) :
    eng.Tracks key (eng.machine.run s ops).1 ∧
      eng.HasNexthop (eng.machine.run s ops).2 key.name key.faceId := by
  have hview := eng.viewSpec.persists_of_derived (s := eng.viewed s) (k := key.name)
    (x := key.faceId) hs (I := eng.Tracks key) (P := P) ht hkeep
    (fun rib hrib => effective_of_tracks hrib) hops
  rw [← viewed_run h] at hview
  exact hview

/-- After the routes of a list were added in turn, each of them is tracked and has its
nexthop. -/
theorem run_add (h : eng.Laws) (s : eng.Tables) (routes : List (Name × RibRoute))
    {e : Name × RibRoute} (he : e ∈ routes) :
    eng.Tracks (e.2.key e.1) (eng.machine.run s (routes.map fun e => .add e.1 e.2)).1 ∧
      eng.HasNexthop (eng.machine.run s (routes.map fun e => .add e.1 e.2)).2 e.1 e.2.faceId := by
  obtain ⟨before, after, rfl⟩ := List.append_of_mem he
  rw [List.map_append, List.map_cons, Machine.run_append, Machine.run_cons]
  generalize eng.machine.run s (before.map fun e => .add e.1 e.2) = s'
  have htracks : eng.Tracks (e.2.key e.1) (eng.add s'.1 e.1 e.2) := tracks_add h _ _ (Or.inr rfl)
  have hhere : eng.HasNexthop (eng.applyToFib (eng.add s'.1 e.1 e.2) e.1 s'.2) e.1 e.2.faceId :=
    (h.hasNexthop_applyToFib ..).mpr (Or.inl ⟨h.recomputes_self _ _, effective_of_tracks htracks⟩)
  refine hasNexthop_run h htracks hhere
    (P := fun op => ∃ n r, op = .add n r) ?_ ?_
  · rintro rib op ht ⟨n, r, rfl⟩
    exact tracks_add h n r (Or.inl ht)
  · intro op hop
    obtain ⟨e', -, rfl⟩ := List.mem_map.mp hop
    exact ⟨_, _, rfl⟩

/-- The change recomputes the entry of the name only with a route on the face in place. -/
def Retains (eng : RouteEngine) (rib : eng.Rib) (op : RibOp) (n : Name) (f : FaceId) : Prop :=
  eng.recomputes (eng.change rib op) op.name n → eng.Effective (eng.change rib op) n f

/-- A nexthop stays in the FIB over a whole run exactly when every change retains it. -/
theorem hasNexthop_persists_iff (h : eng.Laws) {s : eng.Tables} {n : Name} {f : FaceId}
    (hs : eng.HasNexthop s.2 n f) (ops : List RibOp) :
    (∀ pre, pre <+: ops → eng.HasNexthop (eng.machine.run s pre).2 n f) ↔
      ∀ v ∈ eng.machine.visits s ops, eng.Retains v.1.1 v.2 n f := by
  have hview := eng.viewSpec.persists_iff (s := eng.viewed s) (k := n) (x := f) hs ops
  rw [eng.machine.visits_map (viewed_step h)] at hview
  simp only [← viewed_run h, List.forall_mem_map] at hview
  exact hview

end RouteEngine

end NdnFwd
