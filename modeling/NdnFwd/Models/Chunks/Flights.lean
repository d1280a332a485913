import NdnFwd.Core.Window
import NdnFwd.Models.Chunks.Assembly

/-!
# The outstanding requests of the fetch loop

Five variables move together: the slots, their count, the refill position, the map
of outstanding requests and its private sequence number. One invariant ties them.
Each branch of the loop is then a move of the abstract window, or leaves it alone.
-/

namespace NdnFwd

open FetchTask

/-- The outstanding requests are exactly the empty slots below the refill position,
each of them once, and no slot beyond that position is filled. -/
structure FlightInv (pipeline : Nat) (plan : Plan) (s : FetchState) : Prop where
  slots : SlotInv (fun _ _ => True) plan s
  next_le : s.nextSeg ≤ plan.totalSegs
  keys : Table.KeysBelow s.seq s.inFlight
  mem_flying : ∀ i, i ∈ s.flying ↔ i < s.nextSeg ∧ s.segments[i]? = some none
  untouched : ∀ i, s.nextSeg ≤ i → i < plan.totalSegs → i ≠ plan.seg0Idx →
    s.segments[i]? = some none
  nodup : s.flying.Nodup
  size_le : s.inFlight.size ≤ pipeline

/-- Where a refill stops: the window is full, or every segment was passed. -/
def FetchState.Topped (pipeline : Nat) (plan : Plan) (s : FetchState) : Prop :=
  pipeline ≤ s.inFlight.size ∨ s.nextSeg = plan.totalSegs

/-- As many segments fly as the table has entries. -/
theorem FetchState.length_flying (s : FetchState) : s.flying.length = s.inFlight.size := by
  rw [flying, List.length_map, Table.length_values]

/-- Discovery leaves one filled slot and nothing outstanding. -/
theorem flightInv_initial (pipeline : Nat) (plan : Plan) (c : Bytes) :
    FlightInv pipeline plan (FetchState.initial plan c) where
  slots := slotInv_initial plan trivial
  next_le := by
    have hpos := plan.seg0_lt
    simp only [FetchState.initial]
    split <;> omega
  keys := Table.keysBelow_empty 0
  mem_flying i := by
    have hflying : (FetchState.initial plan c).flying = [] := rfl
    rw [hflying]
    constructor
    · intro hi
      cases hi
    · rintro ⟨hlt, hnone⟩
      have hzero : i = 0 ∧ plan.seg0Idx = 0 := by
        simp only [FetchState.initial] at hlt
        split at hlt <;> omega
      obtain ⟨rfl, h0⟩ := hzero
      exact absurd (h0 ▸ hnone) (slotInv_initial (P := fun _ _ => True) plan trivial).seg0
  untouched i _ hlt hne := by
    rw [FetchState.initial, List.getElem?_set_ne (Ne.symm hne), List.getElem?_replicate,
      if_pos hlt]
  nodup := List.nodup_nil
  size_le := Nat.zero_le _

namespace FetchState

/-- The segments whose slot is filled. -/
def stored (plan : Plan) (s : FetchState) : Finset Nat :=
  (Finset.range plan.totalSegs).filter fun i => s.segments[i]? ≠ some none

/-- The segments that the refill has yet to request. -/
def unrequested (plan : Plan) (s : FetchState) : Finset Nat :=
  (Finset.range plan.totalSegs).filter fun i => s.nextSeg ≤ i ∧ i ≠ plan.seg0Idx

/-- A stored segment has its slot filled. -/
theorem mem_stored {plan : Plan} {s : FetchState} {i : Nat} :
    i ∈ s.stored plan ↔ i < plan.totalSegs ∧ s.segments[i]? ≠ some none := by
  rw [stored, Finset.mem_filter, Finset.mem_range]

/-- An unrequested segment is still to come. -/
theorem mem_unrequested {plan : Plan} {s : FetchState} {i : Nat} :
    i ∈ s.unrequested plan ↔ i < plan.totalSegs ∧ s.nextSeg ≤ i ∧ i ≠ plan.seg0Idx := by
  rw [unrequested, Finset.mem_filter, Finset.mem_range]

end FetchState

/-- The loop state as a window over the segment numbers. -/
def FlightInv.window {pipeline : Nat} {plan : Plan} {s : FetchState}
    (h : FlightInv pipeline plan s) : Window Nat where
  fresh := s.unrequested plan
  pending := s.flying.toFinset
  done := s.stored plan
  fresh_pending := Finset.disjoint_left.mpr fun i hf hp => by
    have hle := (FetchState.mem_unrequested.mp hf).2.1
    have hlt := ((h.mem_flying i).mp (List.mem_toFinset.mp hp)).1
    omega
  fresh_done := Finset.disjoint_left.mpr fun i hf hd => by
    obtain ⟨hlt, hle, hne⟩ := FetchState.mem_unrequested.mp hf
    exact (FetchState.mem_stored.mp hd).2 (h.untouched i hle hlt hne)
  pending_done := Finset.disjoint_left.mpr fun i hp hd =>
    (FetchState.mem_stored.mp hd).2 ((h.mem_flying i).mp (List.mem_toFinset.mp hp)).2

end NdnFwd
