import NdnFwd.Models.Chunks.Assembly
import NdnFwd.Models.Chunks.FinalBlock

/-!
# The discovery reply

One packet decides how many slots are allocated and which of them is written
first. The two numbers come from different fields of that packet. Everything that
can go wrong with them goes wrong here: past discovery the fetch cannot panic.
-/

namespace NdnFwd

open FetchTask

/-- The segment number that the FinalBlockId of a packet declares as the last one. -/
def Data.declaredLast (d : Data) : Option Nat := d.finalBlockId.bind decodeFinalBlockIdSegment

/-- Decoding inverts the library's FinalBlockId encoder on every segment number. -/
theorem decodeFinalBlockIdSegment_typedSeg {lib : PacketLib} (h : lib.FinalBlockLaw) (k : UInt64) :
    decodeFinalBlockIdSegment (lib.finalBlockIdTypedSeg k) = some k.toNat := by
  obtain ⟨width, hw, hk, he⟩ := h k
  have hwidth : width < 256 := by
    simp at hw
    omega
  rw [he]
  exact FinalBlock.decode_beBytes hwidth hk k.toNat_lt

namespace FetchTask

variable (task : FetchTask)

/-- A reply that declares no last segment is taken for the whole object. -/
theorem totalSegs_of_undeclared {first : Data} (h : first.declaredLast = none) :
    task.totalSegs first = some 1 := by
  unfold totalSegs
  rw [show first.finalBlockId.bind decodeFinalBlockIdSegment = none from h]

/-- A declared last segment gives the number of segments. -/
theorem totalSegs_of_declared {first : Data} {last : Nat} (h : first.declaredLast = some last) :
    task.totalSegs first = task.host.addOne last := by
  unfold totalSegs
  rw [show first.finalBlockId.bind decodeFinalBlockIdSegment = some last from h]

/-- The plan that a discovery reply leads to, with every check it passed. -/
structure PlanOf (first : Data) (plan : Plan) : Prop where
  /-- The reply ends in a segment component. -/
  segment : first.EndsInSegment
  /-- The prefix is the name of the reply without that component. -/
  versionedPrefix : plan.versionedPrefix = first.name.dropLast
  /-- The discovery segment is the number of that component. -/
  seg0Idx : plan.seg0Idx = task.seg0Idx first
  /-- The slots are those the reply declares. -/
  total : task.totalSegs first = some plan.totalSegs
  /-- One segment alone needs no loop. -/
  ne_one : plan.totalSegs ≠ 1
  /-- The slots could be allocated. -/
  le_limit : plan.totalSegs ≤ task.host.vecLimit

/-- Discovery returns the reply as the whole object, opens the loop, or panics. -/
theorem discover_cases (first : Data) :
    (task.discover first = .answered first.contentOrEmpty ∧
      (first.EndsInSegment → task.totalSegs first = some 1)) ∨
    (∃ plan, task.PlanOf first plan ∧
      task.discover first = .refilling plan (FetchState.initial plan first.contentOrEmpty)) ∨
    (∃ p, task.discover first = .panicked p ∧ first.EndsInSegment ∧
      ∀ total, task.totalSegs first = some total → total ≠ 1 ∧
        (total ≤ task.host.vecLimit → total ≤ task.seg0Idx first)) := by
  unfold discover
  split
  next hseg =>
    cases ht : task.totalSegs first with
    | none => exact Or.inr (Or.inr ⟨_, rfl, hseg, fun total h => absurd h (by simp)⟩)
    | some total =>
      dsimp only
      split
      next h1 => exact Or.inl ⟨rfl, fun _ => by rw [h1]⟩
      next h1 =>
        split
        next hv =>
          split
          next hi => exact Or.inr (Or.inl ⟨_, ⟨hseg, rfl, rfl, ht, h1, hv⟩, rfl⟩)
          next hi =>
            refine Or.inr (Or.inr ⟨_, rfl, hseg, fun total' h => ?_⟩)
            obtain rfl := Option.some.inj h
            exact ⟨h1, fun _ => by omega⟩
        next hv =>
          refine Or.inr (Or.inr ⟨_, rfl, hseg, fun total' h => ?_⟩)
          obtain rfl := Option.some.inj h
          exact ⟨h1, fun hv' => absurd hv' hv⟩
  next hseg => exact Or.inl ⟨rfl, fun h => absurd h hseg⟩

/-- The reply puts itself beyond its own last segment, or declares the maximal one. -/
def BadReply (first : Data) : Prop :=
  first.EndsInSegment ∧ ∃ last, first.declaredLast = some last ∧
    (last < task.seg0Idx first ∨ last + 1 = 2 ^ usizeBits)

/-- The fetch survives every input after `first`, and reports a bad reply as an error. -/
def CrashFree (first : Data) (later : List FetchEvent) : Prop :=
  (∀ p, task.fetch first later ≠ .panicked p) ∧
    (task.BadReply first → ∃ e, task.fetch first later = .failed e)

/-- The segment number of the reply is within its FinalBlockId, if it has one, and the
slots it asks for can be allocated. -/
def ReplyFits (first : Data) : Prop :=
  first.EndsInSegment → ∀ last, first.declaredLast = some last →
    task.seg0Idx first ≤ last ∧ (last = 0 ∨ last + 1 ≤ task.host.vecLimit)

/-- Past discovery the fetch stays within its plan, so that no input makes it panic. -/
theorem fetch_of_plan {first : Data} {plan : Plan}
    (h : task.discover first = .refilling plan (FetchState.initial plan first.contentOrEmpty))
    {P : Nat → Bytes → Prop} (h0 : P plan.seg0Idx first.contentOrEmpty) {later : List FetchEvent}
    (hlater : ∀ d ∈ packets later, ∀ k, task.lib.lastSegment d.name = some k →
      k.toNat < plan.totalSegs → k.toNat ≠ plan.seg0Idx → P k.toNat d.contentOrEmpty) :
    (task.fetch first later).Keeps plan P := by
  have hstart : (task.discover first).Keeps plan P := by
    rw [h]
    exact ⟨rfl, slotInv_initial plan h0⟩
  exact task.run_keeps hstart hlater

/-- A task that ends in discovery returns what discovery returned. -/
theorem fetch_of_ended {first : Data} {f : Fetcher} (h : task.discover first = f) (hf : f.Ended)
    (later : List FetchEvent) : task.fetch first later = f := by
  rw [fetch_eq, h, task.run_ended hf]

/-- The number is exact, or it has wrapped around. -/
theorem addOne_eq_some {host : Host} {last total : Nat} (h : host.addOne last = some total) :
    total = last + 1 ∧ last + 1 < 2 ^ usizeBits ∨ total = 0 ∧ 2 ^ usizeBits ≤ last + 1 := by
  unfold Host.addOne at h
  split at h
  next hlt => exact Or.inl ⟨(Option.some.inj h).symm, hlt⟩
  next hge =>
    split at h
    · cases h
    · exact Or.inr ⟨(Option.some.inj h).symm, Nat.le_of_not_lt hge⟩

/-- A plan fits the reply it was made from. -/
theorem PlanOf.replyFits {first : Data} {plan : Plan} (h : task.PlanOf first plan) :
    task.ReplyFits first := by
  intro _ last hlast
  have htotal := h.total
  rw [task.totalSegs_of_declared hlast] at htotal
  have hlt := plan.seg0_lt
  have hle := h.le_limit
  rw [h.seg0Idx] at hlt
  rcases addOne_eq_some htotal with ⟨he, _⟩ | ⟨he, _⟩ <;> omega

/-- A bad reply is one that does not fit. -/
theorem BadReply.not_replyFits {first : Data} (h : task.BadReply first) :
    ¬ task.ReplyFits first := by
  intro hfits
  obtain ⟨hseg, last, hlast, hbad⟩ := h
  obtain ⟨hle, hlim⟩ := hfits hseg last hlast
  have hv := task.host.vecLimit_lt
  rw [two_pow_usizeBits] at hbad hv
  omega

/-- A reply that fits never makes discovery panic. -/
theorem discover_ne_panicked {first : Data} (h : task.ReplyFits first) (p : Panic) :
    task.discover first ≠ .panicked p := by
  intro hp
  rcases task.discover_cases first with ⟨he, _⟩ | ⟨plan, _, he⟩ | ⟨p', he, hseg, htotal⟩
  · rw [he] at hp; cases hp
  · rw [he] at hp; cases hp
  · cases hlast : first.declaredLast with
    | none => exact (htotal 1 (task.totalSegs_of_undeclared hlast)).1 rfl
    | some last =>
      obtain ⟨hle, hlim⟩ := h hseg last hlast
      have hv := task.host.vecLimit_lt
      have hlt : last + 1 < 2 ^ usizeBits := by
        rw [two_pow_usizeBits] at hv ⊢
        omega
      have hadd : task.totalSegs first = some (last + 1) := by
        rw [task.totalSegs_of_declared hlast, Host.addOne, if_pos hlt]
      have ht := htotal (last + 1) hadd
      omega

/-- The fetch survives the network exactly when the discovery reply fits. -/
theorem crashFree_iff_replyFits (first : Data) (later : List FetchEvent) :
    task.CrashFree first later ↔ task.ReplyFits first := by
  constructor
  · rintro ⟨hpanic, herr⟩
    rcases task.discover_cases first with ⟨he, h1⟩ | ⟨plan, hplan, _⟩ | ⟨p, he, _⟩
    · intro hseg last hlast
      have hadd := h1 hseg
      have hfetch := task.fetch_of_ended he trivial later
      have hgood : ¬ task.BadReply first := fun hbad => by
        obtain ⟨e, hf⟩ := herr hbad
        rw [hfetch] at hf
        cases hf
      rw [task.totalSegs_of_declared hlast] at hadd
      have hle : ¬ last < task.seg0Idx first := fun hlt =>
        hgood ⟨hseg, last, hlast, Or.inl hlt⟩
      rcases addOne_eq_some hadd with ⟨hone, _⟩ | ⟨hone, _⟩ <;> omega
    · exact hplan.replyFits
    · exact absurd (task.fetch_of_ended he trivial later) (hpanic p)
  · intro hfits
    refine ⟨fun p hp => ?_, fun hbad => absurd hfits hbad.not_replyFits⟩
    rcases task.discover_cases first with ⟨he, _⟩ | ⟨plan, _, he⟩ | ⟨p', he, _⟩
    · rw [task.fetch_of_ended he trivial] at hp
      cases hp
    · have hkeeps : (task.fetch first later).Keeps plan fun _ _ => True :=
        task.fetch_of_plan he trivial fun _ _ _ _ _ _ => trivial
      rw [hp] at hkeeps
      exact hkeeps
    · exact task.discover_ne_panicked hfits p' he

end FetchTask

/-- A fetch of `/a` with a window of two, on a debug build. -/
def sampleTask : FetchTask where
  lib := PacketLib.conventions
  host := ⟨true, 2 ^ 58 - 1, by decide⟩
  namePrefix := [⟨8, [97]⟩]
  pipeline := 2
  lifetime := 4000

/-- Data under `/a/v=1/seg=k` with the given FinalBlockId and content. -/
def sampleData (k : UInt64) (finalBlockId : Option Bytes) (content : Bytes) : Data where
  name := [⟨8, [97]⟩, PacketLib.conventions.version 1, PacketLib.conventions.segment k]
  metaInfo := some ⟨none, finalBlockId⟩
  content := some content

/-- Segment 5 of an object that ends at segment 1 crashes the fetch, and so does a
FinalBlockId of eight `0xff` bytes. -/
theorem sampleTask_not_crashFree :
    ¬ sampleTask.CrashFree (sampleData 5 (some [0x32, 1, 1]) []) [] ∧
      ¬ sampleTask.CrashFree (sampleData 0 (some (0x32 :: 8 :: List.replicate 8 0xff)) []) [] := by
  have hindex : sampleTask.fetch (sampleData 5 (some [0x32, 1, 1]) []) [] =
      .panicked .indexOutOfBounds := by decide
  have hadd : sampleTask.fetch (sampleData 0 (some (0x32 :: 8 :: List.replicate 8 0xff)) []) [] =
      .panicked .addOverflow := by decide
  exact ⟨fun h => h.1 _ hindex, fun h => h.1 _ hadd⟩

end NdnFwd
