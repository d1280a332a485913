import NdnFwd.Models.Chunks.Put

/-!
# Replies and the Interests they answer

An Interest with a segment number gets Data under its own name, or none. Any other Interest
gets segment 0 of the version of the run, whether it asks for that or not: such Data satisfies
it only if it lets a longer name answer and names the base or the version of the run.
-/

namespace NdnFwd.PutRun

variable (run : PutRun)

/-- One received Interest is dealt with properly: every reply satisfies it, and `served` counts
the replies that do. -/
structure Answers (s : PutState) (i : Interest) (ok : Bool) : Prop where
  satisfied : ∀ d ∈ (run.step s (.interest i ok)).2, i.SatisfiedBy d
  counted : (run.step s (.interest i ok)).1.served =
    s.served + (run.step s (.interest i ok)).2.countP fun d => i.SatisfiedBy d

/-- An Interest that the first segment of the version of the run satisfies. -/
def Discovers (i : Interest) : Prop :=
  i.canBePrefix = true ∧ (i.name = run.params.name ∨ i.name = run.servedPrefix)

instance (i : Interest) : Decidable (run.Discovers i) := inferInstanceAs (Decidable (_ ∧ _))

/-- If the server is about to answer an Interest without a segment number, this is a discovery
Interest. -/
def AskedProperly (s : PutState) (i : Interest) (ok : Bool) : Prop :=
  s.running = true → ok = true → run.env.lib.lastSegment i.name = none →
    (run.producer.segment 0).isSome = true → run.Discovers i

instance (s : PutState) (i : Interest) (ok : Bool) : Decidable (run.AskedProperly s i ok) :=
  inferInstanceAs (Decidable (_ → _))

/-- Every Interest under the base name is dealt with properly. -/
def RepliesSatisfy (es : List PutEvent) : Prop :=
  ∀ s i ok, (s, .interest i ok) ∈ run.machine.visits start es → run.params.name <+: i.name →
    run.Answers s i ok

/-- Every Interest under the base name is asked properly. -/
def AllAskedProperly (es : List PutEvent) : Prop :=
  ∀ s i ok, (s, .interest i ok) ∈ run.machine.visits start es → run.params.name <+: i.name →
    run.AskedProperly s i ok

variable {run}

/-- Under the base name, only a discovery Interest is satisfied by the discovery reply. -/
theorem satisfiedBy_reply_iff (hlib : run.env.lib.SegmentLaws) {i : Interest}
    (hunder : run.params.name <+: i.name) (hnone : run.env.lib.lastSegment i.name = none)
    (k : UInt64) (content : Bytes) :
    i.SatisfiedBy (run.reply (run.env.lib.appendSegment run.servedPrefix k) content) ↔
      run.Discovers i := by
  have hne : i.name ≠ run.env.lib.appendSegment run.servedPrefix k := by
    intro heq
    rw [heq, PacketLib.lastSegment_appendSegment hlib] at hnone
    cases hnone
  have hbase : i.name <+: run.params.name ↔ i.name = run.params.name := by
    constructor
    · intro h
      exact h.eq_of_length (Nat.le_antisymm h.length_le hunder.length_le)
    · intro h
      exact h ▸ List.prefix_rfl
  have hbetween : i.name <+: run.env.lib.appendSegment run.servedPrefix k ↔
      i.name = run.params.name ∨ i.name = run.servedPrefix := by
    rw [PacketLib.appendSegment] at hne ⊢
    rw [List.prefix_concat_iff, or_iff_right hne, servedPrefix, List.prefix_concat_iff, hbase,
      or_comm]
  rw [Interest.SatisfiedBy, reply, or_iff_right hne.symm, hbetween, Discovers]

/-- The server counts the replies it sends. -/
theorem served_step (s : PutState) (e : PutEvent) :
    (run.step s e).1.served = s.served + (run.step s e).2.length := by
  cases e with
  | undecodable | stop => rfl
  | interest i ok =>
    cases hrun : s.running with
    | false => simp [step, hrun]
    | true =>
      cases hidx : run.segIdx i with
      | none => simp [step, hrun, hidx]
      | some idx =>
        cases hseg : run.producer.segment idx with
        | none => simp [step, hrun, hidx, hseg]
        | some content => cases ok <;> simp [step, hrun, hidx, hseg]

/-- An Interest without a segment number gets the first segment. -/
theorem step_discovery {s : PutState} (hrun : s.running = true) {i : Interest}
    (hnone : run.env.lib.lastSegment i.name = none) {content : Bytes}
    (hcontent : run.producer.segment 0 = some content) :
    (run.step s (.interest i true)).2 =
      [run.reply (run.env.lib.appendSegment run.servedPrefix 0) content] := by
  have hidx : run.segIdx i = some 0 := by simp only [segIdx, hnone]
  have hname : run.dataName i 0 = run.env.lib.appendSegment run.servedPrefix 0 := by
    rw [dataName, hnone, Option.isSome_none, if_neg Bool.false_ne_true]
    rfl
  simp only [step, hrun, if_true, hidx, hcontent, hname]

/-- An Interest is dealt with properly exactly if it is asked properly. -/
theorem answers_iff_askedProperly (hlib : run.env.lib.SegmentLaws) {s : PutState} {i : Interest}
    {ok : Bool} (hunder : run.params.name <+: i.name) :
    run.Answers s i ok ↔ run.AskedProperly s i ok := by
  constructor
  · rintro ⟨hsat, -⟩ hrun rfl hnone hsome
    obtain ⟨content, hcontent⟩ := Option.isSome_iff_exists.mp hsome
    rw [step_discovery hrun hnone hcontent] at hsat
    exact (satisfiedBy_reply_iff hlib hunder hnone 0 content).mp
      (hsat _ (List.mem_singleton_self _))
  · intro hasked
    have hsat : ∀ d ∈ (run.step s (.interest i ok)).2, i.SatisfiedBy d := by
      intro d hd
      obtain ⟨i', idx, content, he, hrun, hidx, hcontent, rfl⟩ := run.mem_step hd
      cases he
      cases hlast : run.env.lib.lastSegment i.name with
      | some k =>
        rw [dataName, hlast, Option.isSome_some, if_pos rfl]
        exact Or.inl rfl
      | none =>
        obtain rfl : 0 = idx := by simpa only [segIdx, hlast, Option.some.injEq] using hidx
        rw [dataName, hlast, Option.isSome_none, if_neg Bool.false_ne_true]
        exact (satisfiedBy_reply_iff hlib hunder hlast _ content).mpr
          (hasked hrun rfl hlast (by rw [hcontent, Option.isSome_some]))
    refine ⟨hsat, ?_⟩
    rw [served_step, List.countP_eq_length.mpr fun d hd => decide_eq_true (hsat d hd)]

/-- In every run, all Interests under the base name are dealt with properly exactly if all of
them are asked properly. -/
theorem replies_satisfy_iff (run : PutRun) (hlib : run.env.lib.SegmentLaws)
    (es : List PutEvent) : run.RepliesSatisfy es ↔ run.AllAskedProperly es := by
  constructor
  · intro h s i ok hv hunder
    exact (answers_iff_askedProperly hlib hunder).mp (h s i ok hv hunder)
  · intro h s i ok hv hunder
    exact (answers_iff_askedProperly hlib hunder).mpr (h s i ok hv hunder)

section Samples

/-- A payload of two segments, served at the time 5 µs. -/
def twoSegments : PutRun := sampleRun 5 [10, 20] (by decide)

/-- Discovery, and then a segment under a version that somebody else picked. -/
def properInterests : List PutEvent :=
  [sampleDiscovery,
    .interest ⟨[⟨8, [97]⟩, ⟨TlvType.version, [4]⟩, ⟨TlvType.segment, [1]⟩], false, none⟩ true]

/-- Proper Interests are answered properly. -/
theorem twoSegments_replies : twoSegments.RepliesSatisfy properInterests := by
  apply (replies_satisfy_iff twoSegments PacketLib.conventions_segmentLaws properInterests).mpr
  intro s i ok hv _
  rcases List.mem_pair.mp hv with h | h <;> cases h <;> decide

/-- An Interest for `/a/f`. -/
def foreignInterest : PutEvent := .interest ⟨[⟨8, [97]⟩, ⟨8, [102]⟩], false, none⟩ true

/-- It gets segment 0 of the version 5, and is counted. -/
theorem twoSegments_answers_foreign :
    ¬twoSegments.RepliesSatisfy [foreignInterest] ∧
      (twoSegments.machine.run start [foreignInterest]).served = 1 := by
  refine ⟨fun h => ?_, by decide⟩
  have hanswers := h start _ true (List.mem_singleton_self _) (by decide)
  have hsat := hanswers.satisfied (twoSegments.reply
    [⟨8, [97]⟩, ⟨TlvType.version, [5]⟩, ⟨TlvType.segment, [0]⟩] [10]) (by decide)
  exact absurd hsat (by decide)

end Samples

end NdnFwd.PutRun
