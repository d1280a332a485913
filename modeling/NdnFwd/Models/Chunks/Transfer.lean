import NdnFwd.Core.Network
import NdnFwd.Models.Chunks.Object
import NdnFwd.Models.Chunks.Put

/-!
# From put to peek

One server and one fetcher over a network that keeps every packet ever sent. Packets
may be delayed, reordered, repeated and dropped, a cache may answer discovery with any
segment, and other clients may ask the server for anything. The server sends nothing
but pieces that declare the last one, which is all the fetcher needs.
-/

namespace NdnFwd

/-- How the events of the two tools hand over packets. Data reaches the fetcher only in
answer to an Interest that it has sent. -/
def transferWiring : Wiring FetchEvent PutEvent Interest Data where
  carries
    | .packet d => some d
    | _ => none
  asks
    | .interest i _ => some i
    | _ => none
  answers requests d := ∃ q ∈ requests, q.SatisfiedBy d
  foreign _ := True

/-- A piece that declares the last one. -/
def Data.MarkedPieceOf (lib : PacketLib) (pieces : List Bytes) (d : Data) : Prop :=
  d.PieceOf lib pieces ∧ d.DeclaresLast pieces

/-- The states of one put run and one peek run that the network can bring about. -/
def TransferReaches (task : FetchTask) (run : PutRun) :
    Net Fetcher PutState Interest Data → Prop :=
  Net.Reaches task.machine run.machine transferWiring ⟨.start, PutRun.start, [], []⟩

namespace PutRun

/-- Every reply is a piece of the payload and declares the last one. -/
theorem markedPieceOf_of_mem (run : PutRun) (hlib : run.env.lib.SegmentLaws)
    (hfinal : run.env.lib.FinalBlockLaw) {pieces : List Bytes}
    (hsplit : run.producer.Splits run.params.data pieces) (hpos : 1 ≤ run.segCount) {s : PutState}
    {e : PutEvent} {d : Data} (hd : d ∈ (run.step s e).2) :
    d.MarkedPieceOf run.env.lib pieces := by
  obtain ⟨i, idx, content, rfl, -, hidx, hcontent, rfl⟩ := run.mem_step hd
  obtain ⟨k, hk, rfl⟩ := run.lastSegment_dataName hlib hidx
  have hcount : run.segCount = pieces.length := hsplit.count
  have hlt : k.toNat < pieces.length := by
    rw [← hcount]
    unfold segIdx at hidx
    split at hidx
    next =>
      split at hidx
      next hlt => exact Option.some.inj hidx ▸ hlt
      next => cases hidx
    next => exact Option.some.inj hidx ▸ hpos
  constructor
  · refine ⟨k, hk, ?_⟩
    rw [← hsplit.segment _ hlt, hcontent]
    rfl
  · have hlast : (UInt64.ofNat run.lastSeg).toNat = pieces.length - 1 := by
      have hbound : run.segCount < 2 ^ usizeBits := hsplit.count_lt
      rw [two_pow_usizeBits] at hbound
      rw [UInt64.toNat_ofNat', lastSeg, hcount, Nat.mod_eq_of_lt (by omega)]
    rw [Data.DeclaresLast, ← hlast]
    exact decodeFinalBlockIdSegment_typedSeg hfinal _

end PutRun

/-- Whatever the network does, a fetch that returns has the payload. -/
theorem transfer_lossless (task : FetchTask) (run : PutRun) (hshared : task.lib = run.env.lib)
    (hlib : run.env.lib.SegmentLaws) (hfinal : run.env.lib.FinalBlockLaw)
    (hchunks : run.env.ChunkLaw) (hsize : 1 ≤ run.params.chunkSize) (hpos : 1 ≤ run.segCount)
    (n : Net Fetcher PutState Interest Data) (hn : TransferReaches task run n) (b : Bytes)
    (hok : n.client.ok? = some b) : b = run.params.data := by
  have hchunk : 1 ≤ run.chunkSize := by
    rw [PutRun.chunkSize, if_neg (by omega)]
    exact hsize
  obtain ⟨pieces, hsplit⟩ :=
    hchunks run.params.name run.params.data run.chunkSize hchunk run.params.data_lt
  have hclient : ∀ f e, f.Whole pieces →
      (∀ d, transferWiring.carries e = some d → d.MarkedPieceOf run.env.lib pieces) →
      (task.step f e).1.Whole pieces := by
    intro f e hf hcarried
    refine task.step_whole (hshared ▸ hlib) hf (fun d he => ?_) (fun _ d he => ?_)
    · exact hshared ▸ (hcarried d (he ▸ rfl)).1
    · exact (hcarried d (he ▸ rfl)).2
  have hserver : ∀ (s : PutState) e, True →
      True ∧ ∀ d ∈ (run.step s e).2, d.MarkedPieceOf run.env.lib pieces :=
    fun s e _ => ⟨trivial, fun d hd => run.markedPieceOf_of_mem hlib hfinal hsplit hpos hd⟩
  have hinv := Net.Reaches.invariant (J := fun _ => True) hclient hserver hn trivial trivial
    (fun d hd => absurd hd List.not_mem_nil)
  exact (hinv.1.ok_eq hok).trans hsplit.flatten

/-- Two bytes in two segments, each of them asked for and delivered once. -/
theorem sampleTransfer_lossless :
    ∃ n, TransferReaches sampleTask (sampleRun 1 [1, 2] (by decide)) n ∧
      n.client.ok? = some [1, 2] ∧ [1, 2] = (sampleRun 1 [1, 2] (by decide)).params.data := by
  let run := sampleRun 1 [1, 2] (by decide)
  let ask : PutEvent := .interest (sampleTask.makeInterest samplePlan 1) true
  have hreach : ∃ n, TransferReaches sampleTask run n ∧ n.client.ok? = some [1, 2] := by
    refine ⟨_, .tail (.tail (.tail (.tail (.tail (.tail (.tail .refl
      (.client _ (.sent 0 true) ?_)) (.server _ sampleDiscovery ?_))
      (.client _ (.packet (sampleData 0 (some [0x32, 1, 1]) [1])) ?_))
      (.client _ (.sent 1 true) ?_)) (.server _ ask ?_))
      (.client _ (.packet (sampleData 1 (some [0x32, 1, 1]) [2])) ?_))
      (.client _ (.sent 2 true) ?_), rfl⟩
    · intro d hd
      cases hd
    · intro q hq
      obtain rfl := Option.some.inj hq
      exact Or.inl (by decide)
    · intro d hd
      obtain rfl := Option.some.inj hd
      exact ⟨by decide, sampleTask.discoveryInterest, by decide, by decide⟩
    · intro d hd
      cases hd
    · intro q hq
      obtain rfl := Option.some.inj hq
      exact Or.inl (by decide)
    · intro d hd
      obtain rfl := Option.some.inj hd
      exact ⟨by decide, sampleTask.makeInterest samplePlan 1, by decide, by decide⟩
    · intro d hd
      cases hd
  obtain ⟨n, hn, hok⟩ := hreach
  exact ⟨n, hn, hok, transfer_lossless sampleTask run rfl PacketLib.conventions_segmentLaws
    PacketLib.conventions_finalBlockLaw PutEnv.splitting_chunkLaw (by decide) (by decide) n hn
    [1, 2] hok⟩

end NdnFwd
