import NdnFwd.Core.Machine
import NdnFwd.Models.Chunks.Peek

/-!
# The segment server of the put tool

`run_producer` past its registration: one loop that answers Interests from the
segments of one payload. The name of a reply comes from two places. An Interest with
a segment number is answered under its own name, any other one under the version that
the run has picked. Signing and the printed progress play no part in either.
-/

namespace NdnFwd

/-- `ndn_ipc::chunked::ChunkedProducer`, seen from its callers. -/
structure ChunkedProducer where
  segmentCount : Nat
  segment : Nat → Option Bytes

/-- What `run_producer` uses from outside the repository. -/
structure PutEnv where
  lib : PacketLib
  /-- `ChunkedProducer::new(name, data, chunk_size)`. -/
  newChunked : Name → Bytes → Nat → ChunkedProducer
  /-- `NDN_DEFAULT_SEGMENT_SIZE`. -/
  defaultSegmentSize : Nat

/-- The producer serves consecutive pieces of the payload, as many as it counts. -/
structure ChunkedProducer.Splits (p : ChunkedProducer) (data : Bytes) (pieces : List Bytes) :
    Prop where
  flatten : pieces.flatten = data
  count : p.segmentCount = pieces.length
  count_lt : p.segmentCount < 2 ^ usizeBits
  segment : ∀ i < pieces.length, p.segment i = pieces[i]?

/-- Splitting any payload that fits in memory, at any positive chunk size. -/
def PutEnv.ChunkLaw (env : PutEnv) : Prop :=
  ∀ name data size, 1 ≤ size → data.length < 2 ^ usizeBits →
    ∃ pieces, (env.newChunked name data size).Splits data pieces

/-- Cut a byte string into pieces of `size` bytes; `fuel` bounds their number. -/
def splitEvery (size : Nat) : Nat → Bytes → List Bytes
  | 0, _ => []
  | _ + 1, [] => []
  | fuel + 1, b :: bs => (b :: bs).take size :: splitEvery size fuel ((b :: bs).drop size)

private theorem flatten_splitEvery {size : Nat} (h : 1 ≤ size) :
    ∀ (fuel : Nat) (bs : Bytes), bs.length ≤ fuel → (splitEvery size fuel bs).flatten = bs := by
  intro fuel
  induction fuel with
  | zero =>
    intro bs hle
    rw [List.length_eq_zero_iff.mp (Nat.le_zero.mp hle), splitEvery, List.flatten_nil]
  | succ fuel ih =>
    intro bs hle
    cases bs with
    | nil => rfl
    | cons b bs =>
      have hrest : ((b :: bs).drop size).length ≤ fuel := by
        rw [List.length_drop]
        omega
      rw [splitEvery, List.flatten_cons, ih _ hrest, List.take_append_drop]

private theorem length_splitEvery_le (size : Nat) :
    ∀ (fuel : Nat) (bs : Bytes), (splitEvery size fuel bs).length ≤ fuel := by
  intro fuel
  induction fuel with
  | zero =>
    intro bs
    rfl
  | succ fuel ih =>
    intro bs
    cases bs with
    | nil => exact Nat.zero_le _
    | cons b bs => exact Nat.succ_le_succ (ih _)

/-- The surroundings with a producer that cuts the payload into equal pieces. -/
def PutEnv.splitting : PutEnv where
  lib := PacketLib.conventions
  newChunked _ data size :=
    ⟨(splitEvery size data.length data).length, fun i => (splitEvery size data.length data)[i]?⟩
  defaultSegmentSize := 8192

/-- Cutting into pieces of one size keeps the content. -/
theorem PutEnv.splitting_chunkLaw : PutEnv.splitting.ChunkLaw := by
  intro _ data size hsize hdata
  refine ⟨splitEvery size data.length data, flatten_splitEvery hsize _ _ le_rfl, rfl, ?_, ?_⟩
  · exact (length_splitEvery_le size _ _).trans_lt hdata
  · intro i _
    rfl

/-- The fields of `PutParams` that reach the packets. -/
structure PutParams where
  name : Name
  data : Bytes
  chunkSize : Nat
  freshnessMs : Nat
  data_lt : data.length < 2 ^ usizeBits

/-- What resumes the server. -/
inductive PutEvent
  /-- An Interest was received; `ok` is the fate of the reply. -/
  | interest (i : Interest) (ok : Bool)
  | undecodable
  /-- Cancelled, past its deadline, or disconnected. -/
  | stop

/-- The mutable variables of the loop, and whether it is still running. -/
structure PutState where
  running : Bool
  served : Nat
  unknown : Nat
  deriving DecidableEq

/-- One call of `run_producer`, with the timestamp it reads. -/
structure PutRun where
  env : PutEnv
  params : PutParams
  tsUs : UInt64

namespace PutRun

variable (run : PutRun)

/-- `chunk_size`, where 0 selects the default. -/
def chunkSize : Nat :=
  if run.params.chunkSize = 0 then run.env.defaultSegmentSize else run.params.chunkSize

/-- The segments to be served. -/
def producer : ChunkedProducer :=
  run.env.newChunked run.params.name run.params.data run.chunkSize

/-- Their number. -/
def segCount : Nat := run.producer.segmentCount

/-- `seg_count.saturating_sub(1)`. -/
def lastSeg : Nat := run.segCount - 1

/-- The prefix they are served under. -/
def servedPrefix : Name := run.params.name ++ [run.env.lib.version run.tsUs]

/-- A positive freshness period in milliseconds. -/
def freshness : Option Nat :=
  if 0 < run.params.freshnessMs then some run.params.freshnessMs else none

/-- The reply under `name` with the given content. -/
def reply (name : Name) (content : Bytes) : Data where
  name := name
  metaInfo := some
    ⟨run.freshness, some (run.env.lib.finalBlockIdTypedSeg (UInt64.ofNat run.lastSeg))⟩
  content := some content

/-- `data_name`: an Interest with a segment number is answered under its own name. -/
def dataName (i : Interest) (segIdx : Nat) : Name :=
  if (run.env.lib.lastSegment i.name).isSome then i.name
  else run.env.lib.appendSegment run.servedPrefix (UInt64.ofNat segIdx)

/-- `seg_idx`: the requested segment if it is in range, and segment 0 for discovery. -/
def segIdx (i : Interest) : Option Nat :=
  match run.env.lib.lastSegment i.name with
  | some k => if k.toNat < run.segCount then some k.toNat else none
  | none => some 0

/-- One round of the loop, from one receive to the next. -/
def step (s : PutState) : PutEvent → PutState × List Data
  | .interest i ok =>
    if s.running then
      match run.segIdx i with
      | none => ({ s with unknown := s.unknown + 1 }, [])
      | some idx =>
        match run.producer.segment idx with
        | none => (s, [])
        | some content =>
          if ok then
            ({ s with served := s.served + 1 }, [run.reply (run.dataName i idx) content])
          else ({ s with running := false }, [])
    else (s, [])
  | .undecodable => (s, [])
  | .stop => ({ s with running := false }, [])

/-- The loop of `run_producer`. -/
def machine : Machine PutState PutEvent Data := ⟨run.step⟩

/-- Before the first event. -/
def start : PutState := ⟨true, 0, 0⟩

/-- The Data packets that a run sends. -/
def sent (es : List PutEvent) : List Data := run.machine.sent start es

/-- A reply belongs to an Interest that was received while running. -/
theorem mem_step {s : PutState} {e : PutEvent} {d : Data} (h : d ∈ (run.step s e).2) :
    ∃ i idx content, e = .interest i true ∧ s.running = true ∧ run.segIdx i = some idx ∧
      run.producer.segment idx = some content ∧ d = run.reply (run.dataName i idx) content := by
  cases e with
  | undecodable | stop => cases h
  | interest i ok =>
    unfold step at h
    dsimp only at h
    split at h
    next hrun =>
      split at h
      next => cases h
      next idx hidx =>
        split at h
        next => cases h
        next content hcontent =>
          cases ok with
          | false => cases h
          | true =>
            exact ⟨i, idx, content, rfl, hrun, hidx, hcontent, List.mem_singleton.mp h⟩
    next => cases h

/-- An Interest for a segment that the server has is answered under its own name. -/
theorem step_segment {s : PutState} (hrun : s.running = true) {i : Interest} {k : UInt64}
    (hk : run.env.lib.lastSegment i.name = some k) (hlt : k.toNat < run.segCount) {content : Bytes}
    (hcontent : run.producer.segment k.toNat = some content) :
    (run.step s (.interest i true)).2 = [run.reply i.name content] := by
  have hidx : run.segIdx i = some k.toNat := by simp only [segIdx, hk, if_pos hlt]
  have hname : run.dataName i k.toNat = i.name := by
    rw [dataName, hk, Option.isSome_some, if_pos rfl]
  simp only [step, hrun, if_true, hidx, hcontent, hname]

/-- A reply ends in the number of the segment it carries. -/
theorem lastSegment_dataName (hlib : run.env.lib.SegmentLaws) {i : Interest} {idx : Nat}
    (hidx : run.segIdx i = some idx) :
    ∃ k, run.env.lib.lastSegment (run.dataName i idx) = some k ∧ k.toNat = idx := by
  unfold segIdx at hidx
  cases hk : run.env.lib.lastSegment i.name with
  | some k =>
    simp only [hk] at hidx
    split at hidx
    next =>
      rw [dataName, hk, Option.isSome_some, if_pos rfl]
      exact ⟨k, hk, Option.some.inj hidx⟩
    next => cases hidx
  | none =>
    simp only [hk] at hidx
    obtain rfl := Option.some.inj hidx
    rw [dataName, hk]
    exact ⟨0, PacketLib.lastSegment_appendSegment hlib _ _, rfl⟩

end PutRun

/-- A run on `/a` that serves the given payload in pieces of one byte. -/
def sampleRun (tsUs : UInt64) (data : Bytes) (h : data.length < 2 ^ usizeBits) : PutRun where
  env := .splitting
  params := ⟨[⟨8, [97]⟩], data, 1, 0, h⟩
  tsUs := tsUs

/-- An Interest for `/a`, which asks for any version. -/
def sampleDiscovery : PutEvent := .interest ⟨[⟨8, [97]⟩], true, some 4000⟩ true

end NdnFwd
