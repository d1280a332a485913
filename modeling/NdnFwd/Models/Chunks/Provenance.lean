import NdnFwd.Models.Chunks.Discovery

/-!
# Where the bytes of an assembled object come from

The receive branch keys its slots on the last name component alone. A result
therefore consists of contents received under the right segment numbers, and of
contents of the discovered version exactly when the network returns nothing but
answers to the requests of the loop. For one object, the result is the whole object
as soon as the discovery reply declares the last segment.
-/

namespace NdnFwd

namespace FetchTask

variable (task : FetchTask)

/-- Every stored content came under the discovered version and its own number. -/
def OwnVersionOnly (first : Data) (later : List FetchEvent) : Prop :=
  ∀ plan s b, task.fetch first later = .assembled plan s b →
    ∀ i c, s.segments[i]? = some (some c) →
      ∃ d ∈ first :: packets later,
        d.name = task.lib.appendSegment plan.versionedPrefix (UInt64.ofNat i) ∧
          d.contentOrEmpty = c

/-- The packet answers one of the requests that the loop may send. -/
def AnswersLoop (plan : Plan) (d : Data) : Prop :=
  ∃ seg < plan.totalSegs, (task.makeInterest plan seg).SatisfiedBy d

/-- Only the name of a segment of the plan answers a request of the loop. -/
theorem AnswersLoop.name_eq {plan : Plan} {d : Data} (h : task.AnswersLoop plan d) :
    ∃ seg < plan.totalSegs,
      d.name = task.lib.appendSegment plan.versionedPrefix (UInt64.ofNat seg) := by
  obtain ⟨seg, hlt, hname | ⟨hcbp, -⟩⟩ := h
  · exact ⟨seg, hlt, hname⟩
  · cases hcbp

/-- A content of the discovery reply at its own index, and elsewhere a content that
was received under that segment number. -/
def Received (plan : Plan) (first : Data) (later : List FetchEvent) (i : Nat) (c : Bytes) : Prop :=
  if i = plan.seg0Idx then c = first.contentOrEmpty
  else ∃ d ∈ packets later, ∃ k, task.lib.lastSegment d.name = some k ∧ k.toNat = i ∧
    d.contentOrEmpty = c

/-- Every packet of the run satisfies `Received` at its own number. -/
theorem received_of_packet (plan : Plan) (first : Data) (later : List FetchEvent) :
    ∀ d ∈ packets later, ∀ k, task.lib.lastSegment d.name = some k → k.toNat < plan.totalSegs →
      k.toNat ≠ plan.seg0Idx → task.Received plan first later k.toNat d.contentOrEmpty := by
  intro d hd k hk _ hne
  rw [Received, if_neg hne]
  exact ⟨d, hd, k, hk, rfl, rfl⟩

/-- A result of the loop comes from a plan, and the run kept its slots. -/
theorem keeps_of_assembled {first : Data} {later : List FetchEvent} {plan : Plan} {s : FetchState}
    {b : Bytes} (h : task.fetch first later = .assembled plan s b) :
    task.PlanOf first plan ∧
      (Fetcher.assembled plan s b).Keeps plan (task.Received plan first later) := by
  rcases task.discover_cases first with ⟨he, -⟩ | ⟨plan', hplan, he⟩ | ⟨p, he, -⟩
  · rw [task.fetch_of_ended he trivial] at h
    cases h
  · have h0 : task.Received plan' first later plan'.seg0Idx first.contentOrEmpty := by
      rw [Received, if_pos rfl]
    have hkeeps := task.fetch_of_plan he h0 (task.received_of_packet plan' first later)
    rw [h] at hkeeps
    obtain rfl : plan = plan' := hkeeps.1
    exact ⟨hplan, hkeeps⟩
  · rw [task.fetch_of_ended he trivial] at h
    cases h

/-- How a result of the loop is made up of the packets of its run. -/
structure AssembledFrom (plan : Plan) (first : Data) (later : List FetchEvent) (s : FetchState)
    (b : Bytes) : Prop where
  /-- The version is the one the discovery reply names. -/
  version : plan.versionedPrefix = first.name.dropLast
  /-- The result joins one content for each segment number. -/
  joined : ∃ pieces : List Bytes,
    s.segments = pieces.map some ∧ pieces.length = plan.totalSegs ∧ b = pieces.flatten
  /-- The discovery reply supplies the content at its own number. -/
  discovered : s.segments[plan.seg0Idx]? = some (some first.contentOrEmpty)
  /-- Any other content was received under its own number. -/
  numbered : ∀ i c, i ≠ plan.seg0Idx → s.segments[i]? = some (some c) →
    ∃ d ∈ packets later, ∃ k, task.lib.lastSegment d.name = some k ∧ k.toNat = i ∧
      d.contentOrEmpty = c
  /-- It was received under the discovered version too, if the network returned only
  answers to the requests of the loop. -/
  versioned : (∀ d ∈ packets later, task.AnswersLoop plan d) →
    ∀ i c, i ≠ plan.seg0Idx → s.segments[i]? = some (some c) →
      ∃ d ∈ packets later,
        d.name = task.lib.appendSegment plan.versionedPrefix (UInt64.ofNat i) ∧
          d.contentOrEmpty = c

/-- The provenance of every byte that the loop returns, over all inputs and orders. -/
theorem assembled_provenance (hlib : task.lib.SegmentLaws) (first : Data)
    (later : List FetchEvent) (plan : Plan) (s : FetchState) (b : Bytes)
    (h : task.fetch first later = .assembled plan s b) :
    task.AssembledFrom plan first later s b := by
  obtain ⟨hplan, hkeeps⟩ := task.keeps_of_assembled h
  obtain ⟨pieces, hseg, hlen, hflat, -⟩ := pieces_of_keeps hkeeps
  obtain ⟨-, hs, -⟩ := hkeeps
  have hother : ∀ i c, i ≠ plan.seg0Idx → s.segments[i]? = some (some c) →
      ∃ d ∈ packets later, ∃ k, task.lib.lastSegment d.name = some k ∧ k.toNat = i ∧
        d.contentOrEmpty = c := by
    intro i c hne hc
    have hr := hs.holds i c hc
    rwa [Received, if_neg hne] at hr
  refine ⟨hplan.versionedPrefix, ⟨pieces, hseg, hlen, hflat⟩, ?_, hother, ?_⟩
  · have hlt : plan.seg0Idx < pieces.length := hlen ▸ plan.seg0_lt
    have hslot : s.segments[plan.seg0Idx]? = some (some pieces[plan.seg0Idx]) := by
      rw [hseg, List.getElem?_map, List.getElem?_eq_getElem hlt, Option.map_some]
    have hr := hs.holds _ _ hslot
    rw [Received, if_pos rfl] at hr
    rw [hslot, hr]
  · intro hanswers i c hne hc
    obtain ⟨d, hd, k, hk, rfl, hcontent⟩ := hother i c hne hc
    obtain ⟨seg, -, hname⟩ := (hanswers d hd).name_eq
    rw [hname, PacketLib.lastSegment_appendSegment hlib] at hk
    obtain rfl := Option.some.inj hk
    exact ⟨d, hd, by rw [hname, UInt64.ofNat_toNat], hcontent⟩

end FetchTask

/-- The plan of a two-segment object under `/a/v=1`. -/
def samplePlan : Plan where
  versionedPrefix := [⟨8, [97]⟩, PacketLib.conventions.version 1]
  seg0Idx := 0
  totalSegs := 2
  seg0_lt := by decide
  total_lt := by decide

/-- The loop state in which both segments are stored. -/
def sampleEnd (a b : Bytes) : FetchState := ⟨[some a, some b], ∅, 2, 2, 1⟩

/-- A fetch of two segments, with a stray packet and a duplicate in between. -/
theorem sampleTask_provenance :
    sampleTask.fetch (sampleData 0 (some [0x32, 1, 1]) [1])
        [.sent 0 true, .undecodable, .sent 1 true, .packet (sampleData 0 none [9]),
          .sent 2 true, .packet (sampleData 1 none [2]), .sent 3 true] =
        .assembled samplePlan (sampleEnd [1] [2]) [1, 2] ∧
      sampleTask.AssembledFrom samplePlan (sampleData 0 (some [0x32, 1, 1]) [1])
        [.sent 0 true, .undecodable, .sent 1 true, .packet (sampleData 0 none [9]),
          .sent 2 true, .packet (sampleData 1 none [2]), .sent 3 true] (sampleEnd [1] [2])
        [1, 2] :=
  ⟨rfl, sampleTask.assembled_provenance PacketLib.conventions_segmentLaws _ _ _ _ _ rfl⟩

/-- Data named `/b/seg=1`, which answers no request of the fetch. -/
def foreignData : Data := ⟨[⟨8, [98]⟩, PacketLib.conventions.segment 1], none, some [7]⟩

/-- A foreign packet that ends in segment number 1 is stored as segment 1. -/
theorem sampleTask_not_ownVersionOnly :
    ¬ sampleTask.OwnVersionOnly (sampleData 0 (some [0x32, 1, 1]) [1])
        [.sent 0 true, .packet foreignData, .sent 1 true] := by
  intro h
  have hrun : sampleTask.fetch (sampleData 0 (some [0x32, 1, 1]) [1])
      [.sent 0 true, .packet foreignData, .sent 1 true] =
        .assembled samplePlan (sampleEnd [1] [7]) [1, 7] := rfl
  obtain ⟨d, hd, hname, -⟩ := h _ _ _ hrun 1 [7] rfl
  have hd' : d = sampleData 0 (some [0x32, 1, 1]) [1] ∨ d = foreignData := by
    simpa [packets] using hd
  rcases hd' with rfl | rfl
  · exact absurd hname (by decide)
  · exact absurd hname (by decide)

end NdnFwd
