import NdnFwd.Models.Chunks.Flights

/-!
# The fetch pipeline loses no segment

The refill takes up the next segments in order, the receive branch finishes one of
them, and the timeout branch renames outstanding requests without adding or dropping
any. Over a run in which the network delivers only what was requested, every segment
stays in exactly one class, and a timeout repeats exactly the missing requests.
-/

namespace NdnFwd

namespace FetchTask

variable (task : FetchTask)

/-- What the refill loop computes: it appends the passed segments except the discovery
segment, never overfills the window, and stops only when it must. -/
theorem fillBatch_spec (plan : Plan) (outstanding : Nat) :
    ∀ (rounds : Nat) (batch : List Nat) (nextSeg : Nat), nextSeg ≤ plan.totalSegs →
      outstanding + batch.length ≤ task.pipeline →
      ∃ n, (task.fillBatch plan outstanding rounds batch nextSeg).2 = nextSeg + n ∧
        nextSeg + n ≤ plan.totalSegs ∧
        (task.fillBatch plan outstanding rounds batch nextSeg).1 =
          batch ++ (List.range' nextSeg n).filter (· ≠ plan.seg0Idx) ∧
        outstanding + (task.fillBatch plan outstanding rounds batch nextSeg).1.length ≤
          task.pipeline ∧
        (plan.totalSegs - nextSeg ≤ rounds →
          task.pipeline ≤
            outstanding + (task.fillBatch plan outstanding rounds batch nextSeg).1.length ∨
          nextSeg + n = plan.totalSegs) := by
  intro rounds
  induction rounds with
  | zero =>
    intro batch nextSeg hle hroom
    refine ⟨0, rfl, hle, ?_, hroom, fun hr => Or.inr (by omega)⟩
    simp only [fillBatch, List.range'_zero, List.filter_nil, List.append_nil]
  | succ rounds ih =>
    intro batch nextSeg hle hroom
    by_cases hgo : outstanding + batch.length < task.pipeline ∧ nextSeg < plan.totalSegs
    · by_cases hskip : nextSeg = plan.seg0Idx
      · have hstep : task.fillBatch plan outstanding (rounds + 1) batch nextSeg =
            task.fillBatch plan outstanding rounds batch (nextSeg + 1) := by
          rw [fillBatch, if_pos hgo, if_pos hskip]
        obtain ⟨n, hnext, hle', hbatch, hroom', hstop⟩ := ih batch (nextSeg + 1) hgo.2 hroom
        rw [hstep]
        refine ⟨n + 1, by rw [hnext]; omega, by omega, ?_, hroom', fun hr => ?_⟩
        · rw [hbatch, List.range'_succ, List.filter_cons_of_neg (by simpa using hskip)]
        · exact (hstop (by omega)).imp_right fun h => by omega
      · have hstep : task.fillBatch plan outstanding (rounds + 1) batch nextSeg =
            task.fillBatch plan outstanding rounds (batch ++ [nextSeg]) (nextSeg + 1) := by
          rw [fillBatch, if_pos hgo, if_neg hskip]
        have hlen : outstanding + (batch ++ [nextSeg]).length ≤ task.pipeline := by
          rw [List.length_append, List.length_singleton]
          omega
        obtain ⟨n, hnext, hle', hbatch, hroom', hstop⟩ :=
          ih (batch ++ [nextSeg]) (nextSeg + 1) hgo.2 hlen
        rw [hstep]
        refine ⟨n + 1, by rw [hnext]; omega, by omega, ?_, hroom', fun hr => ?_⟩
        · rw [hbatch, List.range'_succ, List.filter_cons_of_pos (by simpa using hskip),
            List.append_assoc, List.singleton_append]
        · exact (hstop (by omega)).imp_right fun h => by omega
    · refine ⟨0, by rw [fillBatch, if_neg hgo, Nat.add_zero], hle, ?_, ?_, fun _ => ?_⟩
      · rw [fillBatch, if_neg hgo, List.range'_zero, List.filter_nil, List.append_nil]
      · rw [fillBatch, if_neg hgo]
        exact hroom
      · rw [fillBatch, if_neg hgo]
        dsimp only
        omega

/-- One refill: the segments it passes, in order and without the discovery segment. -/
theorem batchOf_spec {plan : Plan} {s : FetchState} (h : FlightInv task.pipeline plan s) :
    ∃ n, (task.batchOf plan s).2 = s.nextSeg + n ∧ s.nextSeg + n ≤ plan.totalSegs ∧
      (task.batchOf plan s).1 = (List.range' s.nextSeg n).filter (· ≠ plan.seg0Idx) ∧
      s.inFlight.size + (task.batchOf plan s).1.length ≤ task.pipeline ∧
      (task.pipeline ≤ s.inFlight.size + (task.batchOf plan s).1.length ∨
        s.nextSeg + n = plan.totalSegs) := by
  obtain ⟨n, hnext, hle, hbatch, hroom, hstop⟩ :=
    task.fillBatch_spec plan s.inFlight.size (plan.totalSegs - s.nextSeg) [] s.nextSeg h.next_le
      (by simpa using h.size_le)
  rw [List.nil_append] at hbatch
  exact ⟨n, hnext, hle, hbatch, hroom, hstop le_rfl⟩

/-- The segments of a batch are those the refill passes, without the discovery segment. -/
private theorem mem_batch {next n seg0 i : Nat} :
    i ∈ (List.range' next n).filter (· ≠ seg0) ↔ (next ≤ i ∧ i < next + n) ∧ i ≠ seg0 := by
  rw [List.mem_filter, List.mem_range'_1, decide_eq_true_eq]

/-- A refill enters its batch into the map, stamped with the clock reading. -/
theorem values_refill (plan : Plan) {s : FetchState} (h : Table.KeysBelow s.seq s.inFlight)
    (now : Nat) :
    (task.refill plan s now).inFlight.values.Perm
      ((task.batchOf plan s).1.map (⟨·, now⟩) ++ s.inFlight.values) :=
  Table.enlist_values h _

/-- A refill adds its batch to the outstanding requests. -/
theorem flying_refill (plan : Plan) {s : FetchState} (h : Table.KeysBelow s.seq s.inFlight)
    (now : Nat) :
    (task.refill plan s now).flying.Perm ((task.batchOf plan s).1 ++ s.flying) := by
  have hperm := (task.values_refill plan h now).map Flight.seg
  rw [List.map_append, List.map_map, Function.comp_def, List.map_id'] at hperm
  exact hperm

/-- The refill keeps the invariant. -/
theorem flightInv_refill {plan : Plan} {s : FetchState} (h : FlightInv task.pipeline plan s)
    (now : Nat) : FlightInv task.pipeline plan (task.refill plan s now) := by
  obtain ⟨n, hnext, hle, hbatch, hroom, -⟩ := task.batchOf_spec h
  have hperm := task.flying_refill plan h.keys now
  have hnext' : (task.refill plan s now).nextSeg = s.nextSeg + n := hnext
  have hmem : ∀ i, i ∈ (task.refill plan s now).flying ↔
      i < s.nextSeg + n ∧ s.segments[i]? = some none := by
    intro i
    rw [hperm.mem_iff, List.mem_append, hbatch, mem_batch, h.mem_flying]
    constructor
    · rintro (⟨⟨hge, hlt⟩, hne⟩ | ⟨hlt, hnone⟩)
      · exact ⟨hlt, h.untouched i hge (by omega) hne⟩
      · exact ⟨by omega, hnone⟩
    · rintro ⟨hlt, hnone⟩
      by_cases hge : s.nextSeg ≤ i
      · exact Or.inl ⟨⟨hge, hlt⟩, fun he => h.slots.seg0 (he ▸ hnone)⟩
      · exact Or.inr ⟨by omega, hnone⟩
  refine ⟨h.slots.congr rfl rfl, hnext'.symm ▸ hle, h.keys.enlist _, hnext'.symm ▸ hmem,
    ?_, ?_, ?_⟩
  · intro i hge hlt hne
    exact h.untouched i (by omega) hlt hne
  · refine hperm.nodup_iff.mpr (List.nodup_append.mpr ⟨?_, h.nodup, ?_⟩)
    · rw [hbatch]
      exact List.Nodup.filter _ List.nodup_range'
    · intro i hi j hj he
      rw [hbatch, mem_batch] at hi
      have hlt := ((h.mem_flying j).mp hj).1
      omega
  · have hlen := hperm.length_eq
    rw [FetchState.length_flying, List.length_append, FetchState.length_flying] at hlen
    omega

/-- Storing a segment ends its outstanding requests, and no other. -/
theorem flying_storedAt (s : FetchState) (idx : Nat) (c : Bytes) :
    (storedAt s idx c).flying = s.flying.filter (· != idx) := by
  rw [FetchState.flying, storedAt, Table.values_retain (fun f : Flight => f.seg != idx),
    FetchState.flying, List.filter_map]
  rfl

/-- Storing a requested segment keeps the invariant. -/
theorem flightInv_store {pipeline : Nat} {plan : Plan} {s : FetchState}
    (h : FlightInv pipeline plan s) {idx : Nat} (hreq : idx < s.nextSeg)
    (hempty : s.segments[idx]? = some none) (c : Bytes) :
    FlightInv pipeline plan (storedAt s idx c) := by
  have hflying := flying_storedAt s idx c
  refine ⟨h.slots.store hempty trivial, h.next_le, fun k hk => ?_, fun i => ?_,
    fun i hge hlt hne => ?_, ?_, ?_⟩
  · exact h.keys k (Table.mem_of_mem_retain hk)
  · rw [hflying, List.mem_filter, bne_iff_ne, h.mem_flying, empty_storedAt_iff hempty]
    exact and_assoc.trans (and_congr_right fun _ => and_comm)
  · have hnext : s.nextSeg ≤ i := hge
    exact (empty_storedAt_iff hempty).mpr ⟨by omega, h.untouched i hge hlt hne⟩
  · rw [hflying]
    exact h.nodup.filter _
  · refine le_trans ?_ h.size_le
    exact List.length_filter_le _ _

/-- The entries that a timeout finds stale, as requests. -/
theorem stale_perm (s : FetchState) (elapsedAt : Nat → Nat) (order : IterOrder (Nat × Nat)) :
    (task.stale s elapsedAt order).Perm
      ((s.inFlight.pairs.filter fun e => task.lifetime ≤ elapsedAt e.1 - e.2.sentAt).map
        fun e => (e.2.seg, e.1)) := order.perm _

/-- Renaming replaces the stale entries by fresh ones and keeps the others. -/
theorem values_relisted {s : FetchState} (h : Table.KeysBelow s.seq s.inFlight)
    (elapsedAt : Nat → Nat) (now : Nat) (order : IterOrder (Nat × Nat)) :
    (relisted s (task.stale s elapsedAt order) now).inFlight.values.Perm
      ((task.stale s elapsedAt order).map (fun e => ⟨e.1, now⟩) ++
        (s.inFlight.pairs.filter fun e => !task.lifetime ≤ elapsedAt e.1 - e.2.sentAt).map
          Prod.snd) := by
  have hkeys : ((task.stale s elapsedAt order).map Prod.snd).Perm
      ((s.inFlight.pairs.filter fun e => task.lifetime ≤ elapsedAt e.1 - e.2.sentAt).map
        Prod.fst) := by
    have hp := (task.stale_perm s elapsedAt order).map Prod.snd
    rwa [List.map_map] at hp
  have hbelow : Table.KeysBelow s.seq
      (Table.eraseAll ((task.stale s elapsedAt order).map Prod.snd) s.inFlight) :=
    fun k hk => h k (Table.mem_of_mem_eraseAll hk)
  have hkept := Table.values_eraseAll s.inFlight
    (fun e => task.lifetime ≤ elapsedAt e.1 - e.2.sentAt) hkeys
  rw [← hkept]
  exact Table.enlist_values hbelow _

/-- The segments of the stale entries. -/
theorem segs_stale (s : FetchState) (elapsedAt : Nat → Nat) (order : IterOrder (Nat × Nat)) :
    ((task.stale s elapsedAt order).map Prod.fst).Perm
      ((s.inFlight.pairs.filter fun e => task.lifetime ≤ elapsedAt e.1 - e.2.sentAt).map
        (Flight.seg ∘ Prod.snd)) := by
  have hp := (task.stale_perm s elapsedAt order).map Prod.fst
  rwa [List.map_map] at hp

/-- Only outstanding segments are requested again. -/
theorem segs_stale_subset (s : FetchState) (elapsedAt : Nat → Nat) (order : IterOrder (Nat × Nat)) :
    (task.stale s elapsedAt order).map Prod.fst ⊆ s.flying := by
  intro i hi
  obtain ⟨e, he, rfl⟩ := List.mem_map.mp ((task.segs_stale s elapsedAt order).mem_iff.mp hi)
  rw [FetchState.flying, ← Table.values_pairs, List.map_map]
  exact List.mem_map_of_mem (List.mem_filter.mp he).1

/-- Renaming stale requests leaves the outstanding segments as they were. -/
theorem flying_relisted {s : FetchState} (h : Table.KeysBelow s.seq s.inFlight)
    (elapsedAt : Nat → Nat) (now : Nat) (order : IterOrder (Nat × Nat)) :
    (relisted s (task.stale s elapsedAt order) now).flying.Perm s.flying := by
  have hvalues := (task.values_relisted h elapsedAt now order).map Flight.seg
  rw [List.map_append, List.map_map, List.map_map] at hvalues
  refine hvalues.trans (((task.segs_stale s elapsedAt order).append_right _).trans ?_)
  rw [← List.map_append, FetchState.flying, ← Table.values_pairs, List.map_map]
  exact (List.filter_append_perm _ _).map _

/-- The timeout branch keeps the invariant. -/
theorem flightInv_relisted {pipeline : Nat} {plan : Plan} {s : FetchState}
    (h : FlightInv pipeline plan s) (elapsedAt : Nat → Nat) (now : Nat)
    (order : IterOrder (Nat × Nat)) :
    FlightInv pipeline plan (relisted s (task.stale s elapsedAt order) now) := by
  have hperm := task.flying_relisted h.keys elapsedAt now order
  have hbelow : Table.KeysBelow s.seq
      (Table.eraseAll ((task.stale s elapsedAt order).map Prod.snd) s.inFlight) :=
    fun k hk => h.keys k (Table.mem_of_mem_eraseAll hk)
  refine ⟨h.slots.congr rfl rfl, h.next_le, hbelow.enlist _, fun i => ?_, h.untouched,
    hperm.nodup_iff.mpr h.nodup, ?_⟩
  · rw [hperm.mem_iff]
    exact h.mem_flying i
  · have hlen := hperm.length_eq
    rw [FetchState.length_flying, FetchState.length_flying] at hlen
    exact hlen ▸ h.size_le

/-- The refill takes up jobs of the window. -/
theorem refill_move {plan : Plan} {s : FetchState} (h : FlightInv task.pipeline plan s)
    (now : Nat) : Window.Move h.window (task.flightInv_refill h now).window := by
  obtain ⟨n, hnext, hle, hbatch, -, -⟩ := task.batchOf_spec h
  have hperm := task.flying_refill plan h.keys now
  have hnext' : (task.refill plan s now).nextSeg = s.nextSeg + n := hnext
  refine .issue (task.batchOf plan s).1.toFinset ?_ ?_ ?_ rfl
  · intro i hi
    rw [List.mem_toFinset, hbatch, mem_batch] at hi
    exact FetchState.mem_unrequested.mpr ⟨by omega, hi.1.1, hi.2⟩
  · ext i
    simp only [FlightInv.window, Finset.mem_sdiff, FetchState.mem_unrequested, hnext',
      List.mem_toFinset, hbatch, mem_batch]
    omega
  · ext i
    simp only [FlightInv.window, List.mem_toFinset, Finset.mem_union, hperm.mem_iff,
      List.mem_append, Or.comm]

/-- The receive branch finishes a job of the window. -/
theorem store_move {pipeline : Nat} {plan : Plan} {s : FetchState}
    (h : FlightInv pipeline plan s) {idx : Nat} (hreq : idx < s.nextSeg)
    (hempty : s.segments[idx]? = some none) (c : Bytes) :
    Window.Move h.window (flightInv_store h hreq hempty c).window := by
  have hin : idx < plan.totalSegs := h.slots.length ▸ (List.getElem?_eq_some_iff.mp hempty).1
  have h' := flightInv_store h hreq hempty c
  have hnext : (storedAt s idx c).nextSeg = s.nextSeg := rfl
  refine .finish idx ?_ rfl ?_ ?_
  · exact List.mem_toFinset.mpr ((h.mem_flying idx).mpr ⟨hreq, hempty⟩)
  · ext i
    simp only [FlightInv.window, List.mem_toFinset, Finset.mem_erase, h'.mem_flying,
      h.mem_flying, empty_storedAt_iff hempty, hnext]
    tauto
  · ext i
    simp only [FlightInv.window, Finset.mem_insert, FetchState.mem_stored, ne_eq,
      empty_storedAt_iff hempty]
    by_cases he : i = idx
    · simp [he, hin]
    · simp [he]

/-- The timeout branch does not move the window. -/
theorem relisted_window {pipeline : Nat} {plan : Plan} {s : FetchState}
    (h : FlightInv pipeline plan s) (elapsedAt : Nat → Nat) (now : Nat)
    (order : IterOrder (Nat × Nat)) :
    (task.flightInv_relisted h elapsedAt now order).window = h.window := by
  have hperm := task.flying_relisted h.keys elapsedAt now order
  ext i
  · rfl
  · simp only [FlightInv.window, List.mem_toFinset, hperm.mem_iff]
  · rfl

end FetchTask

end NdnFwd
