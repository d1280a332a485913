import NdnFwd.Models.Chunks.Provenance

/-!
# Fetching one object

The packets of one object agree on its pieces, and each of them may or may not
declare the last segment. Discovery trusts the declaration of whichever packet
comes first, and takes a packet without one for an object of a single segment. The
fetch returns the whole object as soon as that one packet declares the last segment.
-/

namespace NdnFwd

open FetchTask

/-- The packet carries the piece of its own segment number. -/
def Data.PieceOf (lib : PacketLib) (pieces : List Bytes) (d : Data) : Prop :=
  ∃ k, lib.lastSegment d.name = some k ∧ pieces[k.toNat]? = some d.contentOrEmpty

/-- The packet declares the last of the pieces. -/
def Data.DeclaresLast (pieces : List Bytes) (d : Data) : Prop :=
  d.declaredLast = some (pieces.length - 1)

/-- A fetch that can only return all pieces, or no result at all. -/
def Fetcher.Whole (pieces : List Bytes) (f : Fetcher) : Prop :=
  match f with
  | .start | .discovering | .failed _ | .panicked _ => True
  | .answered b => pieces = [b]
  | .refilling plan _ | .waiting plan _ | .assembled plan _ _ =>
    plan.totalSegs = pieces.length ∧ f.Keeps plan fun i c => pieces[i]? = some c

/-- The result of such a fetch is the object. -/
theorem Fetcher.Whole.ok_eq {pieces : List Bytes} {f : Fetcher} (h : f.Whole pieces) {b : Bytes}
    (hok : f.ok? = some b) : b = pieces.flatten := by
  cases f with
  | start | discovering | refilling | waiting | failed | panicked => cases hok
  | answered b' =>
    obtain rfl := Option.some.inj hok
    have hone : pieces = [b'] := h
    simp only [hone, List.flatten_cons, List.flatten_nil, List.append_nil]
  | assembled plan s b' =>
    obtain rfl := Option.some.inj hok
    obtain ⟨htotal, hkeeps⟩ := h
    obtain ⟨parts, -, hlen, hflat, hparts⟩ := pieces_of_keeps hkeeps
    have heq : parts = pieces := by
      apply List.ext_getElem?
      intro i
      cases hi : parts[i]? with
      | some c => exact (hparts i c hi).symm
      | none =>
        have hle := List.getElem?_eq_none_iff.mp hi
        exact (List.getElem?_eq_none (by omega)).symm
    rw [hflat, heq]

/-- A loop that stores nothing but pieces of the object, and as many as it has. -/
theorem Fetcher.Keeps.whole {pieces : List Bytes} {plan : Plan} {f : Fetcher}
    (h : f.Keeps plan fun i c => pieces[i]? = some c) (hlen : plan.totalSegs = pieces.length) :
    f.Whole pieces := by
  cases f with
  | start | discovering | failed | panicked => trivial
  | answered => exact h.elim
  | refilling plan' s | waiting plan' s | assembled plan' s b =>
    obtain rfl : plan' = plan := h.1
    exact ⟨hlen, h⟩

/-- A packet with a piece of the object has it under its own number. -/
theorem Data.PieceOf.holds {lib : PacketLib} {pieces : List Bytes} {d : Data}
    (h : d.PieceOf lib pieces) {plan : Plan} :
    ∀ k, lib.lastSegment d.name = some k → k.toNat < plan.totalSegs → k.toNat ≠ plan.seg0Idx →
      pieces[k.toNat]? = some d.contentOrEmpty := by
  intro k hk _ _
  obtain ⟨k', hk', hcontent⟩ := h
  obtain rfl : k = k' := Option.some.inj (hk.symm.trans hk')
  exact hcontent

namespace FetchTask

variable (task : FetchTask)

/-- A discovery reply that declares the last segment opens a loop over all pieces. -/
theorem discover_whole (hlib : task.lib.SegmentLaws) {pieces : List Bytes} {first : Data}
    (hpiece : first.PieceOf task.lib pieces) (hlast : first.DeclaresLast pieces) :
    (task.discover first).Whole pieces ∧
      (1 < pieces.length → ∀ b, task.discover first ≠ .answered b) := by
  obtain ⟨k, hk, hcontent⟩ := hpiece
  obtain ⟨c, hc, htyp, -⟩ := PacketLib.getLast?_of_lastSegment hlib hk
  have hseg : first.EndsInSegment := by rw [Data.EndsInSegment, hc, Option.map_some, htyp]
  have hidx : task.seg0Idx first = k.toNat := by rw [seg0Idx, hk, Option.getD_some]
  have hin : k.toNat < pieces.length := (List.getElem?_eq_some_iff.mp hcontent).1
  have htotal := task.totalSegs_of_declared hlast
  rcases task.discover_cases first with ⟨he, h1⟩ | ⟨plan, hplan, he⟩ | ⟨p, he, -⟩
  · have hone : pieces.length = 1 := by
      have hadd := h1 hseg
      rw [htotal] at hadd
      rcases addOne_eq_some hadd with ⟨hone, -⟩ | ⟨hzero, -⟩ <;> omega
    obtain ⟨a, rfl⟩ := List.length_eq_one_iff.mp hone
    have hk0 : k.toNat = 0 := by omega
    rw [hk0, List.getElem?_cons_zero] at hcontent
    rw [he]
    exact ⟨congrArg (fun b => [b]) (Option.some.inj hcontent), fun h => by omega⟩
  · have hlen : plan.totalSegs = pieces.length := by
      have hadd := hplan.total
      rw [htotal] at hadd
      have hpos := plan.seg0_lt
      rcases addOne_eq_some hadd with ⟨hlen, -⟩ | ⟨hzero, -⟩ <;> omega
    rw [he]
    refine ⟨⟨hlen, rfl, slotInv_initial plan ?_⟩, fun _ b hb => by cases hb⟩
    rw [hplan.seg0Idx, hidx]
    exact hcontent
  · rw [he]
    exact ⟨trivial, fun _ b hb => by cases hb⟩

/-- Each step keeps the promise, if it delivers nothing but pieces of the object and
the packet that answers discovery declares the last one. -/
theorem step_whole (hlib : task.lib.SegmentLaws) {pieces : List Bytes} {f : Fetcher}
    (h : f.Whole pieces) {e : FetchEvent}
    (hpiece : ∀ d, e = .packet d → d.PieceOf task.lib pieces)
    (hlast : f = .discovering → ∀ d, e = .packet d → d.DeclaresLast pieces) :
    (task.step f e).1.Whole pieces := by
  cases f with
  | start =>
    cases e with
    | sent now ok => cases ok <;> trivial
    | packet | undecodable | closed | timeout => trivial
  | discovering =>
    cases e with
    | packet d => exact (task.discover_whole hlib (hpiece d rfl) (hlast rfl d rfl)).1
    | sent | undecodable | closed | timeout => trivial
  | answered | failed | panicked => cases e <;> exact h
  | refilling plan s | waiting plan s | assembled plan s b =>
    obtain ⟨hlen, hkeeps⟩ := h
    exact (task.step_keeps hkeeps fun d hd => (hpiece d hd).holds).whole hlen

/-- Every fetch of an object whose discovery reply declares the last segment. -/
theorem fetch_whole (hlib : task.lib.SegmentLaws) {pieces : List Bytes} {first : Data}
    (hpiece : first.PieceOf task.lib pieces) (hlast : first.DeclaresLast pieces)
    {later : List FetchEvent} (hlater : ∀ d ∈ packets later, d.PieceOf task.lib pieces) :
    (task.fetch first later).Whole pieces ∧
      (1 < pieces.length → ∀ b, task.fetch first later ≠ .answered b) := by
  obtain ⟨hwhole, hmore⟩ := task.discover_whole hlib hpiece hlast
  rcases task.discover_cases first with ⟨he, -⟩ | ⟨plan, -, he⟩ | ⟨p, he, -⟩
  · rw [task.fetch_of_ended he trivial, ← he]
    exact ⟨hwhole, hmore⟩
  · rw [he] at hwhole
    obtain ⟨hlen, hkeeps⟩ := hwhole
    have hrun := task.run_keeps hkeeps fun d hd => (hlater d hd).holds
    rw [fetch_eq, he]
    exact ⟨hrun.whole hlen, fun _ b hb => by rw [hb] at hrun; exact hrun⟩
  · rw [task.fetch_of_ended he trivial, ← he]
    exact ⟨hwhole, hmore⟩

end FetchTask

/-- An object in the network: its pieces, and which of its segments carry a
FinalBlockId. The last one always does. -/
structure SegObject where
  versionedPrefix : Name
  pieces : List Bytes
  marked : Nat → Bool
  pieces_ne_nil : pieces ≠ []
  length_le : pieces.length ≤ 2 ^ 64
  marked_last : marked (pieces.length - 1) = true

namespace SegObject

/-- The packet is segment `k` of the object. -/
structure IsSegment (lib : PacketLib) (o : SegObject) (k : Nat) (d : Data) : Prop where
  lt : k < o.pieces.length
  name : d.name = lib.appendSegment o.versionedPrefix (UInt64.ofNat k)
  content : o.pieces[k]? = some d.contentOrEmpty
  finalBlockId : d.finalBlockId =
    if o.marked k then some (lib.finalBlockIdTypedSeg (UInt64.ofNat (o.pieces.length - 1)))
    else none

variable {lib : PacketLib} {o : SegObject} {k : Nat} {d : Data}

/-- A segment of the object carries its own piece. -/
theorem IsSegment.pieceOf (hlib : lib.SegmentLaws) (h : o.IsSegment lib k d) :
    d.PieceOf lib o.pieces := by
  have hk : (UInt64.ofNat k).toNat = k := by
    have hlt := h.lt
    have hle := o.length_le
    rw [UInt64.toNat_ofNat', Nat.mod_eq_of_lt (by omega)]
  refine ⟨UInt64.ofNat k, ?_, hk.symm ▸ h.content⟩
  rw [h.name, PacketLib.lastSegment_appendSegment hlib]

/-- A marked segment declares the last one. -/
theorem IsSegment.declaresLast (hfinal : lib.FinalBlockLaw) (h : o.IsSegment lib k d)
    (hmark : o.marked k = true) : d.DeclaresLast o.pieces := by
  have hlast : (UInt64.ofNat (o.pieces.length - 1)).toNat = o.pieces.length - 1 := by
    have hpos := List.length_pos_iff.mpr o.pieces_ne_nil
    have hle := o.length_le
    rw [UInt64.toNat_ofNat', Nat.mod_eq_of_lt (by omega)]
  rw [Data.DeclaresLast, Data.declaredLast, h.finalBlockId, if_pos hmark, Option.bind_some,
    decodeFinalBlockIdSegment_typedSeg hfinal, hlast]

/-- Segment `k` as a packet. -/
def packet (lib : PacketLib) (o : SegObject) (k : Nat) : Data where
  name := lib.appendSegment o.versionedPrefix (UInt64.ofNat k)
  metaInfo := some ⟨none,
    if o.marked k then some (lib.finalBlockIdTypedSeg (UInt64.ofNat (o.pieces.length - 1)))
    else none⟩
  content := o.pieces[k]?

private theorem isSegment_packet (lib : PacketLib) {o : SegObject} {k : Nat}
    (hk : k < o.pieces.length) :
    o.IsSegment lib k (o.packet lib k) where
  lt := hk
  name := rfl
  content := by simp only [packet, Data.contentOrEmpty, List.getElem?_eq_getElem hk,
    Option.getD_some]
  finalBlockId := rfl

end SegObject

/-- Whatever answers discovery as segment `k`, and in whatever order the segments
follow, a result is the whole object and not the discovery segment alone. -/
def FetchTask.NeverTruncated (task : FetchTask) (o : SegObject) (k : Nat) : Prop :=
  ∀ first, o.IsSegment task.lib k first → ∀ later,
    (∀ d ∈ packets later, ∃ i, o.IsSegment task.lib i d) →
      (∀ b, (task.fetch first later).ok? = some b → b = o.pieces.flatten) ∧
        (1 < o.pieces.length → ∀ b, task.fetch first later ≠ .answered b)

/-- Fetching through segment `k` never truncates the object exactly when that segment
carries the FinalBlockId. -/
theorem FetchTask.neverTruncated_iff_marked (task : FetchTask) (hlib : task.lib.SegmentLaws)
    (hfinal : task.lib.FinalBlockLaw) (o : SegObject) (k : Nat) (hk : k < o.pieces.length) :
    task.NeverTruncated o k ↔ o.marked k = true := by
  constructor
  · intro h
    by_contra hmark
    have hmore : 1 < o.pieces.length := by
      have hne : k ≠ o.pieces.length - 1 := fun he => hmark (he ▸ o.marked_last)
      omega
    have hfirst := SegObject.isSegment_packet task.lib hk
    have hnone : (o.packet task.lib k).declaredLast = none := by
      rw [Data.declaredLast, hfirst.finalBlockId, if_neg hmark, Option.bind_none]
    have hone := task.totalSegs_of_undeclared hnone
    obtain ⟨-, hnot⟩ := h _ hfirst [] (fun d hd => absurd hd (List.not_mem_nil))
    rcases task.discover_cases (o.packet task.lib k) with ⟨he, -⟩ | ⟨plan, hplan, -⟩ |
      ⟨p, -, -, htotal⟩
    · exact hnot hmore _ (task.fetch_of_ended he trivial [])
    · exact hplan.ne_one (Option.some.inj (hplan.total.symm.trans hone))
    · exact (htotal 1 hone).1 rfl
  · intro hmark first hfirst later hlater
    have hpieces : ∀ d ∈ packets later, d.PieceOf task.lib o.pieces := by
      intro d hd
      obtain ⟨i, hi⟩ := hlater d hd
      exact hi.pieceOf hlib
    obtain ⟨hwhole, hnot⟩ :=
      task.fetch_whole hlib (hfirst.pieceOf hlib) (hfirst.declaresLast hfinal hmark) hpieces
    exact ⟨fun b hb => hwhole.ok_eq hb, hnot⟩

/-- An object of two segments under `/a/v=1` that marks only the last one. -/
def sampleObject : SegObject where
  versionedPrefix := [⟨8, [97]⟩, PacketLib.conventions.version 1]
  pieces := [[1], [2]]
  marked k := k == 1
  pieces_ne_nil := by decide
  length_le := by decide
  marked_last := rfl

/-- Discovery through the marked segment of that object cannot truncate it. -/
theorem sampleTask_neverTruncated :
    1 < sampleObject.pieces.length ∧
      (sampleTask.NeverTruncated sampleObject 1 ↔ sampleObject.marked 1 = true) :=
  ⟨by decide, sampleTask.neverTruncated_iff_marked PacketLib.conventions_segmentLaws
    PacketLib.conventions_finalBlockLaw sampleObject 1 (by decide)⟩

/-- Discovery through the other one returns its content as the whole object. -/
theorem sampleTask_truncates :
    ¬ sampleTask.NeverTruncated sampleObject 0 := by
  intro h
  have hfirst : sampleObject.IsSegment sampleTask.lib 0 (sampleData 0 none [1]) :=
    ⟨by decide, rfl, rfl, rfl⟩
  obtain ⟨hflat, -⟩ := h _ hfirst [] (fun d hd => absurd hd List.not_mem_nil)
  exact absurd (hflat [1] rfl) (by decide)

end NdnFwd
