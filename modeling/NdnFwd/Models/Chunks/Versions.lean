import NdnFwd.Models.Chunks.Discovery
import NdnFwd.Models.Chunks.Put

/-!
# Names and contents of the put tool

A reply always carries the segment whose number its name ends in. The version in the
name is the server's own for discovery, but the requester's for a segment. Two runs
on one base name therefore publish different contents under one name as soon as one of
them is asked for a segment of the other's version, and only then.
-/

namespace NdnFwd

/-- No name occurs with two contents. -/
def Denotes (ds : List Data) : Prop :=
  ∀ d ∈ ds, ∀ d' ∈ ds, d.name = d'.name → d.contentOrEmpty = d'.contentOrEmpty

namespace PutRun

/-- Every packet sent is a segment of the run's own version with its own content. -/
def OwnNames (run : PutRun) (es : List PutEvent) : Prop :=
  ∀ d ∈ run.sent es, ∃ k, d.name = run.env.lib.appendSegment run.servedPrefix k ∧
    run.producer.segment k.toNat = some d.contentOrEmpty

/-- Every Interest that is answered with the segment it asks for names the version
of the run. -/
def AskedOwnVersion (run : PutRun) (es : List PutEvent) : Prop :=
  ∀ v ∈ run.machine.visits start es, v.1.running = true → ∀ i, v.2 = .interest i true →
    ∀ k, run.env.lib.lastSegment i.name = some k → k.toNat < run.segCount →
      (run.producer.segment k.toNat).isSome →
        i.name = run.env.lib.appendSegment run.servedPrefix k

/-- What a publisher of two versions owes to its consumers. -/
structure OneContent (run run' : PutRun) (es es' : List PutEvent) : Prop where
  denotes : Denotes (run.sent es ++ run'.sent es')
  own : run.OwnNames es
  own' : run'.OwnNames es'

/-- A run names its packets after its own version exactly when it is asked for it. -/
theorem ownNames_iff (run : PutRun) (hlib : run.env.lib.SegmentLaws) (es : List PutEvent) :
    run.OwnNames es ↔ run.AskedOwnVersion es := by
  constructor
  · rintro hown ⟨s, e⟩ hv hrun i rfl k hk hlt hsome
    obtain ⟨content, hcontent⟩ := Option.isSome_iff_exists.mp hsome
    have hreply := run.step_segment hrun hk hlt hcontent
    have hsent : run.reply i.name content ∈ run.sent es := by
      refine (run.machine.mem_sent_iff start es _).mpr ⟨_, hv, ?_⟩
      exact hreply ▸ List.mem_singleton_self _
    obtain ⟨k', hname, -⟩ := hown _ hsent
    have hname' : i.name = run.env.lib.appendSegment run.servedPrefix k' := hname
    have hkk : some k = some k' := by
      rw [← hk, hname', PacketLib.lastSegment_appendSegment hlib]
    rw [hname', Option.some.inj hkk]
  · intro hasked d hd
    obtain ⟨⟨s, e⟩, hv, hstep⟩ := (run.machine.mem_sent_iff start es d).mp hd
    obtain ⟨i, idx, content, rfl, hrun, hidx, hcontent, rfl⟩ := run.mem_step hstep
    obtain ⟨k, hk, rfl⟩ := run.lastSegment_dataName hlib hidx
    refine ⟨k, ?_, hcontent⟩
    change run.dataName i k.toNat = _
    cases hi : run.env.lib.lastSegment i.name with
    | none =>
      rw [dataName, hi, Option.isSome_none, if_neg Bool.false_ne_true, UInt64.ofNat_toNat]
    | some k' =>
      rw [dataName, hi, Option.isSome_some, if_pos rfl] at hk ⊢
      have hlt : k.toNat < run.segCount := by
        simp only [segIdx, hk] at hidx
        split at hidx
        next hlt => exact hlt
        next => cases hidx
      exact hasked _ hv hrun i rfl k hk hlt (by rw [hcontent]; rfl)

/-- Within one run, a name determines the content. -/
theorem OwnNames.denotes {run : PutRun} (hlib : run.env.lib.SegmentLaws) {es : List PutEvent}
    (h : run.OwnNames es) : Denotes (run.sent es) := by
  intro d hd d' hd' hname
  obtain ⟨k, hk, hcontent⟩ := h d hd
  obtain ⟨k', hk', hcontent'⟩ := h d' hd'
  rw [hk, hk'] at hname
  obtain ⟨-, rfl⟩ := PacketLib.appendSegment_inj hlib hname
  exact Option.some.inj (hcontent.symm.trans hcontent')

/-- Runs with different timestamps serve under different prefixes. -/
theorem servedPrefix_ne {run run' : PutRun} (hver : Function.Injective run.env.lib.version)
    (hsame : run'.env.lib = run.env.lib) (hts : run.tsUs ≠ run'.tsUs) :
    run.servedPrefix ≠ run'.servedPrefix := by
  intro he
  rw [servedPrefix, servedPrefix, hsame] at he
  exact hts (hver (List.singleton_inj.mp (List.append_inj' he rfl).2))

/-- Two runs, on one base name or on two, publish one content a name and each under its
own version exactly when both are asked for their own segments only. -/
theorem oneContent_iff (run run' : PutRun) (hlib : run.env.lib.SegmentLaws)
    (hver : Function.Injective run.env.lib.version) (hsame : run'.env.lib = run.env.lib)
    (hts : run.tsUs ≠ run'.tsUs) (es es' : List PutEvent) :
    OneContent run run' es es' ↔ run.AskedOwnVersion es ∧ run'.AskedOwnVersion es' := by
  have hlib' : run'.env.lib.SegmentLaws := hsame ▸ hlib
  rw [← run.ownNames_iff hlib, ← run'.ownNames_iff hlib']
  constructor
  · rintro ⟨-, hown, hown'⟩
    exact ⟨hown, hown'⟩
  · rintro ⟨hown, hown'⟩
    have hapart : ∀ d ∈ run.sent es, ∀ d' ∈ run'.sent es', d.name ≠ d'.name := by
      intro d hd d' hd' he
      obtain ⟨k, hk, -⟩ := hown d hd
      obtain ⟨k', hk', -⟩ := hown' d' hd'
      rw [hk, hk', hsame] at he
      exact servedPrefix_ne hver hsame hts (PacketLib.appendSegment_inj hlib he).1
    refine ⟨fun d hd d' hd' he => ?_, hown, hown'⟩
    rcases List.mem_append.mp hd with hd | hd <;> rcases List.mem_append.mp hd' with hd' | hd'
    · exact hown.denotes hlib d hd d' hd' he
    · exact absurd he (hapart d hd d' hd')
    · exact absurd he.symm (hapart d' hd' d hd)
    · exact hown'.denotes hlib' d hd d' hd' he

end PutRun

/-- An Interest for segment 0 of version 1 of `/a`. -/
def sampleOldSegment : PutEvent :=
  .interest ⟨[⟨8, [97]⟩, PacketLib.conventions.version 1, PacketLib.conventions.segment 0],
    false, some 4000⟩ true

/-- The old run serves its own segment, the new one a discovery. -/
theorem sampleRun_oneContent :
    PutRun.OneContent (sampleRun 1 [1] (by decide)) (sampleRun 2 [2] (by decide))
      [sampleDiscovery, sampleOldSegment] [sampleDiscovery] := by
  refine (PutRun.oneContent_iff (sampleRun 1 [1] (by decide)) (sampleRun 2 [2] (by decide))
    PacketLib.conventions_segmentLaws PacketLib.conventions_version_injective rfl (by decide)
    _ _).mpr ⟨?_, ?_⟩
  · intro v hv _ i hi k hk _ _
    simp only [Machine.visits, sampleDiscovery, sampleOldSegment, List.mem_cons,
      List.not_mem_nil, or_false] at hv
    rcases hv with rfl | rfl
    · obtain rfl := (PutEvent.interest.inj hi).1
      cases hk
    · obtain rfl := (PutEvent.interest.inj hi).1
      obtain rfl : k = 0 := (Option.some.inj hk).symm
      rfl
  · intro v hv _ i hi k hk _ _
    simp only [Machine.visits, sampleDiscovery, List.mem_cons, List.not_mem_nil,
      or_false] at hv
    obtain rfl := hv
    obtain rfl := (PutEvent.interest.inj hi).1
    cases hk

/-- Asked for segment 0 of the old version, the new run sends its own content under
the old name. -/
theorem sampleRun_not_oneContent :
    ¬ PutRun.OneContent (sampleRun 1 [1] (by decide)) (sampleRun 2 [2] (by decide))
      [sampleOldSegment] [sampleOldSegment] := by
  intro h
  have hold : (sampleRun 1 [1] (by decide)).sent [sampleOldSegment] =
      [sampleData 0 (some [0x32, 1, 0]) [1]] := rfl
  have hnew : (sampleRun 2 [2] (by decide)).sent [sampleOldSegment] =
      [sampleData 0 (some [0x32, 1, 0]) [2]] := rfl
  have hdenotes := h.denotes
  rw [hold, hnew] at hdenotes
  have hcontent := hdenotes (sampleData 0 (some [0x32, 1, 0]) [1]) (by decide)
    (sampleData 0 (some [0x32, 1, 0]) [2]) (by decide) rfl
  exact absurd hcontent (by decide)

end NdnFwd
