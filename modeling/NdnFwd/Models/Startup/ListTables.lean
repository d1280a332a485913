import NdnFwd.Models.Startup.Nexthops

/-!
# Tables as lists of routes and nexthops

The least that an engine can do: every name has a list of routes and a list of nexthops,
and `apply_to_fib` recomputes the entry of its own name only.
-/

namespace NdnFwd.ListTables

/-- The names above a name. -/
def ancestors (n : Name) : List Name := n.inits.filter fun a => a ≠ n

/-- The routes of a name and those it inherits. -/
def effectiveRoutes (rib : Name → List RibRoute) (n : Name) : List RibRoute :=
  rib n ++ (ancestors n).flatMap fun a => (rib a).filter RibRoute.inherits

/-- A route replaces the one under its key. -/
def add (rib : Name → List RibRoute) (n : Name) (r : RibRoute) : Name → List RibRoute :=
  Function.update rib n (r :: (rib n).filter fun r' => r'.key n ≠ r.key n)

/-- A route is removed by its key. -/
def remove (rib : Name → List RibRoute) (n : Name) (f : FaceId) (origin : Nat) :
    Name → List RibRoute :=
  Function.update rib n ((rib n).filter fun r' => r'.key n ≠ ⟨n, f, origin⟩)

/-- The entry of a name is made of its effective routes. -/
def applyToFib (rib : Name → List RibRoute) (n : Name) (fib : Name → List (FaceId × Nat)) :
    Name → List (FaceId × Nat) :=
  Function.update fib n ((effectiveRoutes rib n).map fun r => (r.faceId, r.cost))

/-- A nexthop replaces the one on its face. -/
def addNexthop (fib : Name → List (FaceId × Nat)) (n : Name) (f : FaceId) (cost : Nat) :
    Name → List (FaceId × Nat) :=
  Function.update fib n ((f, cost) :: (fib n).filter fun nh => nh.1 ≠ f)

/-- The engine over these tables. -/
def engine : RouteEngine where
  Rib := Name → List RibRoute
  Fib := Name → List (FaceId × Nat)
  add := add
  remove := remove
  applyToFib := applyToFib
  addNexthop := addNexthop
  routes rib n := rib n
  nexthops fib n := fib n
  recomputes _ n m := m = n

/-- No route. -/
def empty : engine.Tables := (fun _ => [], fun _ => [])

private theorem mem_ancestors {a n : Name} : a ∈ ancestors n ↔ a <+: n ∧ a ≠ n := by
  simp [ancestors, List.mem_inits]

/-- The effective routes are those of the abstract tables. -/
theorem effective_iff (rib : Name → List RibRoute) (n : Name) (f : FaceId) :
    engine.Effective rib n f ↔ ∃ r ∈ effectiveRoutes rib n, r.faceId = f := by
  simp only [RouteEngine.Effective, effectiveRoutes, engine, List.mem_append, List.mem_flatMap,
    List.mem_filter, mem_ancestors]
  constructor
  · rintro (⟨r, hr, hf⟩ | ⟨a, hpre, hne, r, hr, hin, hf⟩)
    · exact ⟨r, Or.inl hr, hf⟩
    · exact ⟨r, Or.inr ⟨a, ⟨hpre, hne⟩, hr, hin⟩, hf⟩
  · rintro ⟨r, hr | ⟨a, ⟨hpre, hne⟩, hr, hin⟩, hf⟩
    · exact Or.inl ⟨r, hr, hf⟩
    · exact Or.inr ⟨a, hpre, hne, r, hr, hin, hf⟩

private theorem mem_add (rib : Name → List RibRoute) (n : Name) (r : RibRoute) (m : Name)
    (r' : RibRoute) :
    r' ∈ add rib n r m ↔ (m = n ∧ r' = r) ∨ (r' ∈ rib m ∧ r'.key m ≠ r.key n) := by
  by_cases hm : m = n
  · subst hm
    simp [add]
  · have hkey : r'.key m ≠ r.key n := fun h => hm (congrArg RouteKey.name h)
    simp [add, hm, hkey]

private theorem mem_remove (rib : Name → List RibRoute) (n : Name) (f : FaceId) (origin : Nat)
    (m : Name)
    (r' : RibRoute) : r' ∈ remove rib n f origin m ↔ r' ∈ rib m ∧ r'.key m ≠ ⟨n, f, origin⟩ := by
  by_cases hm : m = n
  · subst hm
    simp [remove]
  · have hkey : r'.key m ≠ ⟨n, f, origin⟩ := fun h => hm (congrArg RouteKey.name h)
    simp [remove, hm, hkey]

/-- A nexthop is added. -/
theorem hasNexthop_addNexthop (fib : Name → List (FaceId × Nat)) (n : Name) (f : FaceId)
    (cost : Nat) (m : Name) (f' : FaceId) :
    engine.HasNexthop (addNexthop fib n f cost) m f' ↔
      (m = n ∧ f' = f) ∨ engine.HasNexthop fib m f' := by
  by_cases hm : m = n
  · subst hm
    by_cases hf : f' = f
    · subst hf
      simp [RouteEngine.HasNexthop, engine, addNexthop]
    · simp [RouteEngine.HasNexthop, engine, addNexthop, hf]
  · simp [RouteEngine.HasNexthop, engine, addNexthop, hm]

/-- One entry is recomputed. -/
theorem hasNexthop_applyToFib (rib : Name → List RibRoute) (n : Name)
    (fib : Name → List (FaceId × Nat)) (m : Name) (f : FaceId) :
    engine.HasNexthop (applyToFib rib n fib) m f ↔
      (m = n ∧ engine.Effective rib m f) ∨ (m ≠ n ∧ engine.HasNexthop fib m f) := by
  rw [effective_iff]
  by_cases hm : m = n
  · subst hm
    simp [RouteEngine.HasNexthop, engine, applyToFib]
  · simp [RouteEngine.HasNexthop, engine, applyToFib, hm]

/-- These tables are what `main` relies on. -/
theorem engine_laws : engine.Laws where
  mem_routes_add := mem_add
  mem_routes_remove := mem_remove
  hasNexthop_addNexthop := hasNexthop_addNexthop
  recomputes_self _ _ := rfl
  hasNexthop_applyToFib := hasNexthop_applyToFib

end NdnFwd.ListTables
