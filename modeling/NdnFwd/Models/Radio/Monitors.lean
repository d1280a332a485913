import NdnFwd.Core.Cells
import NdnFwd.Core.Machine
import NdnFwd.Core.Word

/-!
# The registry of watchers

Every watcher is a task that ticks one entry of a shared registry until it sees the
cancellation, and then marks the entry stopped. Starting a watcher overwrites whatever is
there under its id. With distinct ids the registry is a board on which every watcher has a
line of its own.
-/

namespace NdnFwd.Monitors

/-- `status`. -/
inductive Status
  | running
  | stopped
  deriving DecidableEq, Repr

/-- A row of the surface. -/
structure MonitorEntry where
  id : Bytes
  kind : Bytes
  status : Status
  detail : Bytes
  ok : Nat
  fail : Nat
  started : Nat
  deriving DecidableEq, Repr

namespace MonitorEntry

/-- The entry that `start` stores. -/
def fresh (id kind : Bytes) (now : Nat) : MonitorEntry := ⟨id, kind, .running, [], 0, 0, now⟩

/-- What `tick` does to its entry. -/
def tick (e : MonitorEntry) (ok : Bool) (detail : Bytes) : MonitorEntry :=
  if ok then { e with ok := e.ok + 1, detail := detail }
  else { e with fail := e.fail + 1, detail := detail }

/-- What `stop` does to its entry. -/
def stop (e : MonitorEntry) : MonitorEntry := { e with status := .stopped }

end MonitorEntry

/-- `entries`. -/
abbrev MonitorRegistry := Table Bytes MonitorEntry

/-- `MonitorRegistry::start`. -/
def start (registry : MonitorRegistry) (id kind : Bytes) (now : Nat) : MonitorRegistry :=
  registry.insert id (.fresh id kind now)

/-- `MonitorRegistry::tick`. -/
def tick (registry : MonitorRegistry) (id : Bytes) (ok : Bool) (detail : Bytes) :
    MonitorRegistry := Table.modify id (fun e => e.tick ok detail) registry

/-- `MonitorRegistry::stop`. -/
def stop (registry : MonitorRegistry) (id : Bytes) : MonitorRegistry :=
  Table.modify id MonitorEntry.stop registry

/-- The id and the kind that `spawn_polling` is given. -/
structure Watcher where
  id : Bytes
  kind : Bytes
  deriving DecidableEq, Repr

/-- Where the task of a watcher stands. -/
inductive Task
  | idle
  | polling
  | ended
  deriving DecidableEq, Repr

/-- The registry and the tasks. -/
structure Board where
  registry : MonitorRegistry
  spawned : Nat
  tasks : Nat → Task
  cancelled : Bool

/-- What happens next. After the cancellation a task may still find its ticker ready first. -/
inductive Event
  /-- Face setup spawns the next watcher. -/
  | spawn (now : Nat)
  /-- The `i`th task ticks, with what its probe says. -/
  | tick (i : Nat) (ok : Bool) (detail : Bytes)
  | cancel
  /-- The `i`th task sees the cancellation. -/
  | finish (i : Nat)
  deriving DecidableEq, Repr

/-- No monitor has run yet. -/
def Board.start : Board := ⟨∅, 0, fun _ => .idle, false⟩

/-- The watchers of a node, spawned one after the other. -/
def board (ws : List Watcher) : Machine Board Event Empty where
  step s e :=
    match e with
    | .spawn now =>
      match ws[s.spawned]? with
      | some w =>
        ({ s with
            registry := Monitors.start s.registry w.id w.kind now
            spawned := s.spawned + 1
            tasks := Function.update s.tasks s.spawned .polling }, [])
      | none => (s, [])
    | .tick i ok detail =>
      match ws[i]?, s.tasks i with
      | some w, .polling => ({ s with registry := Monitors.tick s.registry w.id ok detail }, [])
      | _, _ => (s, [])
    | .cancel => ({ s with cancelled := true }, [])
    | .finish i =>
      if s.cancelled then
        match ws[i]?, s.tasks i with
        | some w, .polling =>
          ({ s with
              registry := Monitors.stop s.registry w.id
              tasks := Function.update s.tasks i .ended }, [])
        | _, _ => (s, [])
      else (s, [])

/-- The event is a tick of the `i`th watcher whose probe says `ok`, and its task takes it. -/
def isOwnTick {σ : Type*} (tasks : σ → Nat → Task) (i : Nat) (ok : Bool) (v : σ × Event) : Bool :=
  match v.2 with
  | .tick j b _ => decide (j = i ∧ b = ok ∧ tasks v.1 i = .polling)
  | _ => false

/-- How often the probe of the `i`th watcher has said `ok`. -/
def ownTicks (ws : List Watcher) (es : List Event) (i : Nat) (ok : Bool) : Nat :=
  ((board ws).visits Board.start es).countP (isOwnTick Board.tasks i ok)

/-- Every watcher has an entry to itself: after setup there are as many entries as watchers,
each entry counts the ticks of its own probe, and it is stopped when its own task is. -/
structure Separate (ws : List Watcher) (es : List Event) : Prop where
  entries : ((board ws).run Board.start es).spawned = ws.length →
    Table.size ((board ws).run Board.start es).registry = ws.length
  own : ∀ i w, ws[i]? = some w → i < ((board ws).run Board.start es).spawned →
    ∃ e, ((board ws).run Board.start es).registry.lookup w.id = some e ∧ e.kind = w.kind ∧
      e.ok = ownTicks ws es i true ∧ e.fail = ownTicks ws es i false ∧
      (e.status = .stopped ↔ ((board ws).run Board.start es).tasks i = .ended)

section Private

/-- A board on which every watcher has a line of its own. -/
structure PrivateBoard where
  line : Nat → Option MonitorEntry
  spawned : Nat
  tasks : Nat → Task
  cancelled : Bool

/-- No monitor has run yet. -/
def PrivateBoard.start : PrivateBoard := ⟨fun _ => none, 0, fun _ => .idle, false⟩

/-- The watchers, each with its own line. -/
def privateBoard (ws : List Watcher) : Machine PrivateBoard Event Empty where
  step s e :=
    match e with
    | .spawn now =>
      match ws[s.spawned]? with
      | some w =>
        ({ s with
            line := Function.update s.line s.spawned (some (.fresh w.id w.kind now))
            spawned := s.spawned + 1
            tasks := Function.update s.tasks s.spawned .polling }, [])
      | none => (s, [])
    | .tick i ok detail =>
      match ws[i]?, s.tasks i with
      | some _, .polling =>
        ({ s with
            line := Function.update s.line i ((s.line i).map fun e => e.tick ok detail) }, [])
      | _, _ => (s, [])
    | .cancel => ({ s with cancelled := true }, [])
    | .finish i =>
      if s.cancelled then
        match ws[i]?, s.tasks i with
        | some _, .polling =>
          ({ s with
              line := Function.update s.line i ((s.line i).map MonitorEntry.stop)
              tasks := Function.update s.tasks i .ended }, [])
        | _, _ => (s, [])
      else (s, [])

/-- The key of each watcher. -/
def idOf (ws : List Watcher) (i : Nat) : Option Bytes := ws[i]?.map Watcher.id

/-- What the watchers see of the shared registry. -/
def Board.view (ws : List Watcher) (s : Board) : PrivateBoard :=
  ⟨Table.cells (idOf ws) s.registry, s.spawned, s.tasks, s.cancelled⟩

variable {ws : List Watcher}

private theorem keysApart_idOf (h : (ws.map Watcher.id).Nodup) : Table.KeysApart (idOf ws) := by
  intro i j k hi hj
  rw [idOf, ← List.getElem?_map] at hi hj
  have hlt := (List.getElem?_eq_some_iff.mp hi).1
  exact (List.getElem?_inj hlt h).mp (hi.trans hj.symm)

/-- A watcher has its id. -/
theorem idOf_eq {i : Nat} {w : Watcher} (h : ws[i]? = some w) : idOf ws i = some w.id := by
  rw [idOf, h, Option.map_some]

/-- With distinct ids the registry does what a board with private lines does. -/
theorem view_step (h : (ws.map Watcher.id).Nodup) (s : Board) (e : Event) :
    ((board ws).step s e).1.view ws = ((privateBoard ws).step (s.view ws) e).1 := by
  have happart := keysApart_idOf h
  cases e with
  | spawn now =>
    simp only [board, privateBoard, Board.view]
    cases hw : ws[s.spawned]? with
    | none => rfl
    | some w => simp only [start, Table.cells_insert happart (idOf_eq hw)]
  | tick i ok detail =>
    simp only [board, privateBoard, Board.view]
    cases hw : ws[i]? with
    | none => rfl
    | some w =>
      cases s.tasks i with
      | idle | ended => rfl
      | polling => simp only [tick, Table.cells_modify happart (idOf_eq hw)]
  | cancel => rfl
  | finish i =>
    simp only [board, privateBoard, Board.view]
    split_ifs
    · cases hw : ws[i]? with
      | none => rfl
      | some w =>
        cases s.tasks i with
        | idle | ended => rfl
        | polling => simp only [stop, Table.cells_modify happart (idOf_eq hw)]
    · rfl

/-- The empty registry shows nothing. -/
theorem view_start (ws : List Watcher) : Board.start.view ws = PrivateBoard.start := by
  simp only [Board.view, Board.start, PrivateBoard.start, PrivateBoard.mk.injEq, and_true]
  ext1 i
  rw [Table.cells]
  cases idOf ws i with
  | none => rfl
  | some k => exact AList.lookup_empty k

/-- With different ids the registry shows each watcher its own line. -/
theorem view_run (h : (ws.map Watcher.id).Nodup) (es : List Event) :
    ((board ws).run Board.start es).view ws = (privateBoard ws).run PrivateBoard.start es := by
  rw [← view_start ws]
  exact (board ws).run_map (view_step h) Board.start es

end Private

end NdnFwd.Monitors
