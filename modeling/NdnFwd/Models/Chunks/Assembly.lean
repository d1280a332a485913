import NdnFwd.Models.Chunks.Peek

/-!
# What the fetch loop stores

The slots are written by the discovery reply and by the receive branch, and by
nothing else. A predicate that both writes establish therefore holds of every slot
in every state of every run, whatever the network delivers. The loop itself can
neither panic nor leave with an empty slot.
-/

namespace NdnFwd

open FetchTask

/-- The slots of a loop state: as many as planned, correctly counted, and filled
with contents that satisfy `P` at their index. -/
structure SlotInv (P : Nat → Bytes → Prop) (plan : Plan) (s : FetchState) : Prop where
  /-- One slot for each planned segment. -/
  length : s.segments.length = plan.totalSegs
  /-- `received` is the number of filled slots. -/
  counted : s.received = Slots.filled s.segments
  /-- The slot of the discovery segment is filled. -/
  seg0 : s.segments[plan.seg0Idx]? ≠ some none
  /-- Stored contents satisfy the predicate. -/
  holds : Slots.Holds P s.segments

/-- A fetch that is in the loop of `plan`, or has left it with a result. -/
def Fetcher.Keeps (plan : Plan) (P : Nat → Bytes → Prop) : Fetcher → Prop
  | refilling plan' s => plan' = plan ∧ SlotInv P plan s
  | waiting plan' s => plan' = plan ∧ SlotInv P plan s
  | assembled plan' s b => plan' = plan ∧ SlotInv P plan s ∧ reassemble s.segments = some b
  | failed e => e = .sendFailed ∨ e = .closedDuringFetch
  | _ => False

/-- The task has returned or panicked. -/
def Fetcher.Ended : Fetcher → Prop
  | answered _ | assembled _ _ _ | failed _ | panicked _ => True
  | _ => False

/-- The Data packets among the inputs of a run. -/
def packets (es : List FetchEvent) : List Data :=
  es.filterMap fun
    | .packet d => some d
    | _ => none

private theorem mem_packets {es : List FetchEvent} {d : Data} :
    d ∈ packets es ↔ FetchEvent.packet d ∈ es := by
  simp only [packets, List.mem_filterMap]
  constructor
  · rintro ⟨e, he, hd⟩
    cases e <;> simp_all
  · exact fun h => ⟨_, h, rfl⟩

/-- The slots right after discovery: one of them filled. -/
theorem slotInv_initial {P : Nat → Bytes → Prop} (plan : Plan) {c : Bytes}
    (h : P plan.seg0Idx c) : SlotInv P plan (FetchState.initial plan c) where
  length := by simp only [FetchState.initial, List.length_set, List.length_replicate]
  counted := by
    have hempty : (List.replicate plan.totalSegs (none : Option Bytes))[plan.seg0Idx]? =
        some none := by
      simp only [List.getElem?_replicate, if_pos plan.seg0_lt]
    simp only [FetchState.initial, Slots.filled_set hempty, Slots.filled_replicate_none]
  seg0 := by
    rw [FetchState.initial, List.getElem?_set_self (by simpa using plan.seg0_lt)]
    simp
  holds := (Slots.holds_replicate_none P _).set h

/-- A complete count leaves no slot empty, so that the segments can be joined. -/
theorem SlotInv.reassemble {P : Nat → Bytes → Prop} {plan : Plan} {s : FetchState}
    (h : SlotInv P plan s) (hr : s.received = plan.totalSegs) :
    ∃ b, FetchTask.reassemble s.segments = some b := by
  have hfull : Slots.filled s.segments = s.segments.length := by
    rw [← h.counted, h.length, hr]
  obtain ⟨as, has⟩ := Slots.exists_values hfull
  exact ⟨as.flatten, by rw [FetchTask.reassemble, has, Option.map_some]⟩

/-- Storing one more segment in an empty slot. -/
theorem SlotInv.store {P : Nat → Bytes → Prop} {plan : Plan} {s : FetchState}
    (h : SlotInv P plan s) {idx : Nat} {c : Bytes} (hempty : s.segments[idx]? = some none)
    (hP : P idx c) : SlotInv P plan (storedAt s idx c) where
  length := by rw [storedAt, List.length_set, h.length]
  counted := by simp only [storedAt, Slots.filled_set hempty, h.counted]
  seg0 := fun hnone => h.seg0 ((empty_storedAt_iff hempty).mp hnone).2
  holds := h.holds.set hP

/-- Steps that leave the slots and their count alone keep the invariant. -/
theorem SlotInv.congr {P : Nat → Bytes → Prop} {plan : Plan} {s s' : FetchState}
    (h : SlotInv P plan s) (hseg : s'.segments = s.segments) (hrec : s'.received = s.received) :
    SlotInv P plan s' where
  length := by rw [hseg, h.length]
  counted := by rw [hseg, hrec, h.counted]
  seg0 := hseg ▸ h.seg0
  holds := hseg ▸ h.holds

namespace FetchTask

variable (task : FetchTask)

/-- Leaving the loop head: an error only when sending failed, a result only with
every slot filled, and the receive otherwise. -/
theorem loopHead_keeps {P : Nat → Bytes → Prop} {plan : Plan} {s : FetchState}
    (h : SlotInv P plan s) (now : Nat) (ok : Bool) :
    (task.loopHead plan s now ok).1.Keeps plan P := by
  have h' : SlotInv P plan (task.refill plan s now) := h.congr rfl rfl
  rcases task.loopHead_cases plan s now ok with he | he | ⟨hr, ⟨b, hb, he⟩ | ⟨hb, he⟩⟩
  · rw [he]
    exact Or.inl rfl
  · rw [he]
    exact ⟨rfl, h'⟩
  · rw [he]
    exact ⟨rfl, h', hb⟩
  · obtain ⟨b, hb'⟩ := h'.reassemble hr
    rw [hb] at hb'
    cases hb'

/-- The receive branch stores a packet under its own number, or does nothing. -/
theorem accept_keeps {P : Nat → Bytes → Prop} {plan : Plan} {s : FetchState}
    (h : SlotInv P plan s) {d : Data}
    (hd : ∀ k, task.lib.lastSegment d.name = some k → k.toNat < plan.totalSegs →
      k.toNat ≠ plan.seg0Idx → P k.toNat d.contentOrEmpty) :
    (task.accept plan s d).Keeps plan P := by
  rcases task.accept_cases h.length d with he | ⟨k, hk, hlt, hempty, he⟩
  · rw [he]
    exact ⟨rfl, h⟩
  · have hne : k.toNat ≠ plan.seg0Idx := fun he => h.seg0 (he ▸ hempty)
    rw [he]
    exact ⟨rfl, h.store hempty (hd k hk hlt hne)⟩

/-- The timeout branch does not touch the slots. -/
theorem retransmit_keeps {P : Nat → Bytes → Prop} {plan : Plan} {s : FetchState}
    (h : SlotInv P plan s) (elapsedAt : Nat → Nat) (now : Nat) (order : IterOrder (Nat × Nat))
    (resent : Bool) :
    (task.retransmit plan s elapsedAt now order resent).1.Keeps plan P := by
  rcases task.retransmit_cases plan s elapsedAt now order resent with he | he | he
  · rw [he]
    exact ⟨rfl, h⟩
  · rw [he]
    exact ⟨rfl, h.congr rfl rfl⟩
  · rw [he]
    exact Or.inl rfl

/-- One step of the loop keeps the invariant, if a delivered packet with a planned
number other than the discovery segment satisfies the predicate at that number. -/
theorem step_keeps {P : Nat → Bytes → Prop} {plan : Plan} {f : Fetcher} (h : f.Keeps plan P)
    {e : FetchEvent}
    (he : ∀ d, e = .packet d → ∀ k, task.lib.lastSegment d.name = some k →
      k.toNat < plan.totalSegs → k.toNat ≠ plan.seg0Idx → P k.toNat d.contentOrEmpty) :
    (task.step f e).1.Keeps plan P := by
  cases f with
  | start | discovering | answered | panicked => exact h.elim
  | assembled | failed => cases e <;> exact h
  | refilling plan' s =>
    obtain ⟨rfl, hs⟩ := h
    cases e with
    | sent now ok => exact task.loopHead_keeps hs now ok
    | packet | undecodable | closed | timeout => exact ⟨rfl, hs⟩
  | waiting plan' s =>
    obtain ⟨rfl, hs⟩ := h
    cases e with
    | sent => exact ⟨rfl, hs⟩
    | packet d => exact task.accept_keeps hs (he d rfl)
    | undecodable => exact ⟨rfl, hs⟩
    | closed => exact Or.inr rfl
    | timeout elapsedAt now order resent =>
      exact task.retransmit_keeps hs elapsedAt now order resent

/-- The invariant of a whole run of the loop, over any inputs in any order. -/
theorem run_keeps {P : Nat → Bytes → Prop} {plan : Plan} {f : Fetcher} (h : f.Keeps plan P)
    {es : List FetchEvent}
    (hes : ∀ d ∈ packets es, ∀ k, task.lib.lastSegment d.name = some k →
      k.toNat < plan.totalSegs → k.toNat ≠ plan.seg0Idx → P k.toNat d.contentOrEmpty) :
    (task.machine.run f es).Keeps plan P := by
  refine task.machine.run_invariant (P := fun e => e ∈ es) ?_ h (fun e he => he)
  intro f e hf he
  refine task.step_keeps hf fun d hd => hes d (mem_packets.mpr (hd ▸ he))

/-- A result of the loop is the concatenation of one content for each planned segment,
and each of them satisfies the predicate. -/
theorem pieces_of_keeps {P : Nat → Bytes → Prop} {plan plan' : Plan} {s : FetchState} {b : Bytes}
    (h : (Fetcher.assembled plan' s b).Keeps plan P) :
    ∃ pieces : List Bytes, s.segments = pieces.map some ∧ pieces.length = plan.totalSegs ∧
      b = pieces.flatten ∧ ∀ i c, pieces[i]? = some c → P i c := by
  obtain ⟨-, hs, hb⟩ := h
  obtain ⟨pieces, hv, hflat⟩ := Option.map_eq_some_iff.mp hb
  have hseg := Slots.values_eq_some_iff.mp hv
  refine ⟨pieces, hseg, ?_, hflat.symm, fun i c hc => hs.holds i c ?_⟩
  · rw [← hs.length, hseg, List.length_map]
  · rw [hseg, List.getElem?_map, hc, Option.map_some]

/-- A task that has ended ignores every further input. -/
theorem run_ended {f : Fetcher} (h : f.Ended) (es : List FetchEvent) :
    task.machine.run f es = f := by
  refine task.machine.run_invariant (I := (· = f)) (P := fun _ => True) ?_ rfl (fun _ _ => trivial)
  rintro g e rfl -
  cases g with
  | start | discovering | refilling | waiting => exact h.elim
  | answered | assembled | failed | panicked => cases e <;> rfl

end FetchTask

end NdnFwd
