import NdnFwd.Models.Chunks.Pipeline
import NdnFwd.Models.Chunks.Provenance

/-!
# Whole runs of the fetch loop

A run is orderly when every received segment number was requested before. Over an
orderly run the loop refines the abstract window, its requests name only segments it
has passed, and its outstanding requests carry clock readings of the run. A timeout
that waited as long as the code does therefore repeats every outstanding request.
-/

namespace NdnFwd

open FetchTask

/-- The clock readings that a run has stamped on its requests. -/
def readings (es : List FetchEvent) : List Nat :=
  es.flatMap fun
    | .sent now _ => [now]
    | .timeout _ now _ _ => [now]
    | _ => []

namespace FetchTask

variable (task : FetchTask) (plan : Plan) (seg0Content : Bytes)

/-- The loop as discovery enters it. -/
def loopStart : Fetcher := .refilling plan (FetchState.initial plan seg0Content)

/-- `drain`: how long the receive of the loop waits. -/
def drain : Nat := task.lifetime + 500

/-- A request for the segment was sent before, by discovery or by the loop. -/
def Requested (pre : List FetchEvent) (i : Nat) : Prop :=
  i = plan.seg0Idx ∨
    task.makeInterest plan i ∈ task.machine.sent (loopStart plan seg0Content) pre

/-- Every received segment number was requested before. -/
def Orderly (es : List FetchEvent) : Prop :=
  ∀ pre e post, es = pre ++ e :: post → ∀ d, e = .packet d →
    ∀ k, task.lib.lastSegment d.name = some k → k.toNat < plan.totalSegs →
      task.Requested plan seg0Content pre k.toNat

/-- The first part of an orderly run is one. -/
theorem Orderly.start {task : FetchTask} {plan : Plan} {seg0Content : Bytes}
    {es pre post : List FetchEvent} {e : FetchEvent} (h : task.Orderly plan seg0Content es)
    (hes : es = pre ++ e :: post) : task.Orderly plan seg0Content pre := by
  intro pre' e' post' hpre d hd k hk hlt
  exact h pre' e' (post' ++ e :: post) (by rw [hes, hpre, List.append_assoc]; rfl) d hd k hk hlt

/-- A loop state together with the run that led to it: the window was only moved, the
requests name passed segments, and the stamps are readings of the run. -/
structure Traced (pre : List FetchEvent) (wires : List Interest) (s : FetchState) : Prop where
  flights : FlightInv task.pipeline plan s
  moves : Relation.ReflTransGen Window.Move
    (flightInv_initial task.pipeline plan seg0Content).window flights.window
  requested : ∀ w ∈ wires, ∃ i < s.nextSeg, w = task.makeInterest plan i
  stamped : ∀ f ∈ s.inFlight.values, f.sentAt ∈ readings pre

/-- The task is in the loop of the plan, has left it with a result, or has failed. -/
def Tracks (pre : List FetchEvent) (wires : List Interest) : Fetcher → Prop
  | .refilling plan' s => plan' = plan ∧ task.Traced plan seg0Content pre wires s
  | .waiting plan' s | .assembled plan' s _ => plan' = plan ∧
    task.Traced plan seg0Content pre wires s ∧ s.Topped task.pipeline plan
  | .failed _ => True
  | _ => False

variable {task plan seg0Content} {pre : List FetchEvent} {wires : List Interest} {s : FetchState}

/-- A branch that leaves the loop variables alone keeps the trace. -/
theorem Traced.mono (h : task.Traced plan seg0Content pre wires s) (e : FetchEvent) :
    task.Traced plan seg0Content (pre ++ [e]) (wires ++ []) s := by
  refine ⟨h.flights, h.moves, fun w hw => h.requested w (by rwa [List.append_nil] at hw), ?_⟩
  intro f hf
  rw [readings, List.flatMap_append]
  exact List.mem_append_left _ (h.stamped f hf)

/-- The trace after a refill. -/
theorem Traced.refill (h : task.Traced plan seg0Content pre wires s) (now : Nat) (ok : Bool) :
    task.Traced plan seg0Content (pre ++ [.sent now ok])
      (wires ++ (task.batchOf plan s).1.map (task.makeInterest plan))
      (task.refill plan s now) := by
  obtain ⟨n, hnext, -, hbatch, -, -⟩ := task.batchOf_spec h.flights
  have hnext' : (task.refill plan s now).nextSeg = s.nextSeg + n := hnext
  refine ⟨task.flightInv_refill h.flights now, h.moves.tail (task.refill_move h.flights now),
    ?_, ?_⟩
  · intro w hw
    rw [hnext']
    rcases List.mem_append.mp hw with hw | hw
    · obtain ⟨i, hi, he⟩ := h.requested w hw
      exact ⟨i, by omega, he⟩
    · obtain ⟨i, hi, rfl⟩ := List.mem_map.mp hw
      rw [hbatch, List.mem_filter, List.mem_range'_1] at hi
      exact ⟨i, hi.1.2, rfl⟩
  · intro f hf
    rw [readings, List.flatMap_append]
    have hmem := (task.values_refill plan h.flights.keys now).mem_iff.mp hf
    rcases List.mem_append.mp hmem with hf | hf
    · obtain ⟨i, -, rfl⟩ := List.mem_map.mp hf
      exact List.mem_append_right _ (by simp)
    · exact List.mem_append_left _ (h.stamped f hf)

/-- The trace after a requested segment was stored. -/
theorem Traced.store (h : task.Traced plan seg0Content pre wires s) {idx : Nat}
    (hreq : idx < s.nextSeg) (hempty : s.segments[idx]? = some none) (c : Bytes) (d : Data) :
    task.Traced plan seg0Content (pre ++ [.packet d]) (wires ++ []) (storedAt s idx c) := by
  refine ⟨flightInv_store h.flights hreq hempty c,
    h.moves.tail (store_move h.flights hreq hempty c),
    fun w hw => h.requested w (by rwa [List.append_nil] at hw), ?_⟩
  intro f hf
  rw [storedAt, Table.values_retain (fun f : Flight => f.seg != idx)] at hf
  rw [readings, List.flatMap_append]
  exact List.mem_append_left _ (h.stamped f (List.mem_filter.mp hf).1)

/-- The trace after stale requests were repeated. -/
theorem Traced.relisted (h : task.Traced plan seg0Content pre wires s) (elapsedAt : Nat → Nat)
    (now : Nat) (order : IterOrder (Nat × Nat)) (resent : Bool) :
    task.Traced plan seg0Content (pre ++ [.timeout elapsedAt now order resent])
      (wires ++ (task.stale s elapsedAt order).map fun e => task.makeInterest plan e.1)
      (relisted s (task.stale s elapsedAt order) now) := by
  refine ⟨task.flightInv_relisted h.flights elapsedAt now order, ?_, ?_, ?_⟩
  · rw [task.relisted_window h.flights]
    exact h.moves
  · intro w hw
    rcases List.mem_append.mp hw with hw | hw
    · exact h.requested w hw
    · obtain ⟨e, he, rfl⟩ := List.mem_map.mp hw
      have hflying := task.segs_stale_subset s elapsedAt order (List.mem_map_of_mem he)
      exact ⟨e.1, ((h.flights.mem_flying e.1).mp hflying).1, rfl⟩
  · intro f hf
    rw [readings, List.flatMap_append]
    rcases List.mem_append.mp
      ((task.values_relisted h.flights.keys elapsedAt now order).mem_iff.mp hf) with hf | hf
    · obtain ⟨e, -, rfl⟩ := List.mem_map.mp hf
      exact List.mem_append_right _ (by simp)
    · obtain ⟨e, he, rfl⟩ := List.mem_map.mp hf
      have hstored := Table.mem_values_of_mem_pairs (List.mem_filter.mp he).1
      exact List.mem_append_left _ (h.stamped e.2 hstored)

/-- Every segment is accounted for, and the window is busy with missing segments. -/
structure Accounted (task : FetchTask) (plan : Plan) (s : FetchState) : Prop where
  split : ∀ i < plan.totalSegs, Window.ExactlyOne (∃ c, s.segments[i]? = some (some c))
    (i ∈ s.flying) (s.nextSeg ≤ i ∧ i ≠ plan.seg0Idx)
  nodup : s.flying.Nodup
  size_le : s.inFlight.size ≤ task.pipeline
  counted : s.received = Slots.filled s.segments
  busy : s.received < plan.totalSegs → s.flying ≠ []
  missing : ∀ i ∈ s.flying, i < plan.totalSegs ∧ s.segments[i]? = some none

/-- What the timeout branch sends from a traced state. -/
theorem Traced.repeated (h : task.Traced plan seg0Content pre wires s) (elapsedAt : Nat → Nat)
    (now : Nat) (order : IterOrder (Nat × Nat)) :
    ∃ segs : List Nat,
      (task.retransmit plan s elapsedAt now order true).2 = segs.map (task.makeInterest plan) ∧
      segs ⊆ s.flying ∧
      ((∀ t ∈ readings pre, ∀ sq, t + task.drain ≤ elapsedAt sq) → segs.Perm s.flying) := by
  have hsegs := task.segs_stale s elapsedAt order
  refine ⟨(task.stale s elapsedAt order).map Prod.fst, ?_, ?_, ?_⟩
  · unfold retransmit
    dsimp only
    split
    next hnil => rw [hnil]; rfl
    next => rw [if_pos rfl, List.map_map]; rfl
  · exact task.segs_stale_subset s elapsedAt order
  · intro hwait
    have hall : s.inFlight.pairs.filter (fun e =>
        task.lifetime ≤ elapsedAt e.1 - e.2.sentAt) = s.inFlight.pairs := by
      apply List.filter_eq_self.mpr
      intro e he
      have hstamp := h.stamped e.2 (Table.mem_values_of_mem_pairs he)
      have hlate := hwait e.2.sentAt hstamp e.1
      rw [drain] at hlate
      rw [decide_eq_true_eq]
      omega
    rw [hall, ← List.map_map, Table.values_pairs] at hsegs
    exact hsegs

end FetchTask

end NdnFwd
