import NdnFwd.Core.Machine
import NdnFwd.Core.Slots
import NdnFwd.Core.Table
import NdnFwd.Models.Packet.Name

/-!
# The segmented fetch of the peek tool

`fetch_segmented` as a task that suspends at every send and at every timed
receive. The discovery reply fixes the versioned prefix and the number of
segments once and for all; the loop then alternates a refill of the window with
one receive. Panics are outcomes of their own, so that their absence is a theorem.
-/

namespace NdnFwd

/-- Width of `usize` on the 64-bit targets of the tools. -/
def usizeBits : Nat := 64

/-- A `usize` has 64 bits. -/
@[simp] theorem two_pow_usizeBits : 2 ^ usizeBits = 18446744073709551616 := rfl

/-- `decode_final_block_id_segment`: read a FinalBlockId as a segment component. -/
def decodeFinalBlockIdSegment : Bytes → Option Nat
  | typ :: len :: rest =>
    if typ ≠ 0x32 then none
    else if rest.length < len.toNat then none
    else Word.readBe usizeBits (rest.take len.toNat)
  | _ => none

/-- What the build and the machine contribute to a panic. -/
structure Host where
  /-- Whether integer overflow panics, as in a debug build, or wraps. -/
  overflowChecks : Bool
  /-- The largest length that `vec![None; n]` can allocate. -/
  vecLimit : Nat
  /-- A vector length is a `usize`. -/
  vecLimit_lt : vecLimit < 2 ^ usizeBits

/-- `n + 1` on `usize`; `none` is an overflow panic. -/
def Host.addOne (host : Host) (n : Nat) : Option Nat :=
  if n + 1 < 2 ^ usizeBits then some (n + 1) else if host.overflowChecks then none else some 0

/-- The errors `fetch_segmented` returns. -/
inductive FetchError
  /-- The client could not send. -/
  | sendFailed
  /-- No reply to discovery within the lifetime and 500 ms. -/
  | noResponse
  /-- The connection closed before discovery was answered. -/
  | connectionClosed
  /-- The discovery reply is not a Data packet. -/
  | decode
  /-- The connection closed during the loop. -/
  | closedDuringFetch
  /-- A slot was still empty when the segments were joined. -/
  | incomplete
  deriving DecidableEq, Repr

/-- The text of an error, given the shown prefix and the text of the error it wraps. -/
def FetchError.message (shownPrefix cause : String) : FetchError → String
  | sendFailed => cause
  | noResponse => "timeout: no response from " ++ shownPrefix
  | connectionClosed => "connection closed"
  | decode => "decode: " ++ cause
  | closedDuringFetch => "connection closed during segmented fetch"
  | incomplete => "incomplete transfer: missing segment(s)"

/-- The operations of `fetch_segmented` that can panic. -/
inductive Panic
  /-- `last + 1`. -/
  | addOverflow
  /-- `vec![None; total_segs]`. -/
  | capacityOverflow
  /-- An index into `segments`. -/
  | indexOutOfBounds
  deriving DecidableEq, Repr

/-- What discovery settles for the rest of the fetch. -/
structure Plan where
  /-- The name of the discovery reply without its segment component. -/
  versionedPrefix : Name
  /-- The segment that answered discovery, not requested again. -/
  seg0Idx : Nat
  /-- Number of slots. -/
  totalSegs : Nat
  /-- The first write into `segments` was in range. -/
  seg0_lt : seg0Idx < totalSegs
  /-- The number of slots is a `usize`. -/
  total_lt : totalSegs < 2 ^ usizeBits
  deriving DecidableEq

/-- An outstanding request: its segment and the instant it was sent. -/
structure Flight where
  /-- Requested segment. -/
  seg : Nat
  /-- Instant of the latest request, in milliseconds. -/
  sentAt : Nat
  deriving DecidableEq, Repr

/-- The mutable variables of the loop. -/
structure FetchState where
  /-- One slot for each segment. -/
  segments : List (Option Bytes)
  /-- Outstanding requests under private sequence numbers. -/
  inFlight : Table Nat Flight
  /-- Lowest segment the refill has not passed yet. -/
  nextSeg : Nat
  /-- Number of segments stored. -/
  received : Nat
  /-- Next private sequence number. -/
  seq : Nat
  deriving DecidableEq

namespace FetchState

/-- The segments with an outstanding request. -/
def flying (s : FetchState) : List Nat := s.inFlight.values.map Flight.seg

/-- The variables as the loop finds them, with the discovery reply stored. -/
def initial (plan : Plan) (seg0Content : Bytes) : FetchState where
  segments := (List.replicate plan.totalSegs none).set plan.seg0Idx (some seg0Content)
  inFlight := ∅
  nextSeg := if plan.seg0Idx = 0 then 1 else 0
  received := 1
  seq := 0

end FetchState

/-- Where the task is suspended, or how it ended. -/
inductive Fetcher
  /-- Before the discovery Interest is sent. -/
  | start
  /-- Waiting for the discovery reply. -/
  | discovering
  /-- At the head of the loop. -/
  | refilling (plan : Plan) (s : FetchState)
  /-- In the timed receive of the loop. -/
  | waiting (plan : Plan) (s : FetchState)
  /-- Returned the content of the discovery reply alone. -/
  | answered (b : Bytes)
  /-- Left the loop and returned the joined segments. -/
  | assembled (plan : Plan) (s : FetchState) (b : Bytes)
  /-- Returned an error. -/
  | failed (e : FetchError)
  /-- Panicked. -/
  | panicked (p : Panic)
  deriving DecidableEq

namespace Fetcher

/-- The bytes of a fetch that returned `Ok`. -/
def ok? : Fetcher → Option Bytes
  | answered b => some b
  | assembled _ _ b => some b
  | _ => none

end Fetcher

/-- What resumes the task. -/
inductive FetchEvent
  /-- The sends before the next receive were issued; the clock was read as `now`. -/
  | sent (now : Nat) (ok : Bool)
  /-- A Data packet arrived. -/
  | packet (d : Data)
  /-- Something arrived that does not decode as Data. -/
  | undecodable
  /-- The connection closed. -/
  | closed
  /-- The receive timed out. `elapsedAt` reads the clock for each entry of the map, `now`
  for the new requests; `order` is the traversal of the map, `resent` their fate. -/
  | timeout (elapsedAt : Nat → Nat) (now : Nat) (order : IterOrder (Nat × Nat)) (resent : Bool)

/-- The arguments of `fetch_segmented`, and the environment it runs in. -/
structure FetchTask where
  /-- Packet library. -/
  lib : PacketLib
  /-- Build and machine. -/
  host : Host
  /-- The name to fetch. -/
  namePrefix : Name
  /-- Window size. -/
  pipeline : Nat
  /-- InterestLifetime in milliseconds. -/
  lifetime : Nat

namespace FetchTask

variable (task : FetchTask)

/-- The discovery Interest. -/
def discoveryInterest : Interest := ⟨task.namePrefix, true, some task.lifetime⟩

/-- `make_interest(seg)`. -/
def makeInterest (plan : Plan) (seg : Nat) : Interest :=
  ⟨task.lib.appendSegment plan.versionedPrefix (UInt64.ofNat seg), false, some task.lifetime⟩

/-- `total_segs` from the discovery reply; `none` is an overflow panic. -/
def totalSegs (first : Data) : Option Nat :=
  match first.finalBlockId.bind decodeFinalBlockIdSegment with
  | some last => task.host.addOne last
  | none => some 1

/-- `seg0_idx` from the discovery reply. -/
def seg0Idx (first : Data) : Nat := ((task.lib.lastSegment first.name).getD 0).toNat

/-- From the discovery reply to the head of the loop. -/
def discover (first : Data) : Fetcher :=
  if first.EndsInSegment then
    match task.totalSegs first with
    | none => .panicked .addOverflow
    | some total =>
      if total = 1 then .answered first.contentOrEmpty
      else if hv : total ≤ task.host.vecLimit then
        if hi : task.seg0Idx first < total then
          let plan : Plan :=
            ⟨first.name.dropLast, task.seg0Idx first, total, hi,
              hv.trans_lt task.host.vecLimit_lt⟩
          .refilling plan (FetchState.initial plan first.contentOrEmpty)
        else .panicked .indexOutOfBounds
      else .panicked .capacityOverflow
  else .answered first.contentOrEmpty

/-- The `while` loop of the refill. Every round passes one segment, so the number of
segments not passed yet bounds the rounds. -/
def fillBatch (plan : Plan) (outstanding : Nat) : Nat → List Nat → Nat → List Nat × Nat
  | 0, batch, nextSeg => (batch, nextSeg)
  | rounds + 1, batch, nextSeg =>
    if outstanding + batch.length < task.pipeline ∧ nextSeg < plan.totalSegs then
      if nextSeg = plan.seg0Idx then fillBatch plan outstanding rounds batch (nextSeg + 1)
      else fillBatch plan outstanding rounds (batch ++ [nextSeg]) (nextSeg + 1)
    else (batch, nextSeg)

/-- The segments one refill requests, and the next segment after it. -/
def batchOf (plan : Plan) (s : FetchState) : List Nat × Nat :=
  task.fillBatch plan s.inFlight.size (plan.totalSegs - s.nextSeg) [] s.nextSeg

/-- The variables after a refill whose requests went out at `now`. -/
def refill (plan : Plan) (s : FetchState) (now : Nat) : FetchState :=
  let (batch, nextSeg) := task.batchOf plan s
  let (inFlight, seq) := Table.enlist s.seq (batch.map (⟨·, now⟩)) s.inFlight
  { s with inFlight, nextSeg, seq }

/-- `reassemble(segments)`. -/
def reassemble (segments : List (Option Bytes)) : Option Bytes :=
  (Slots.values segments).map List.flatten

/-- The head of the loop: refill, and leave the loop when every segment is stored. -/
def loopHead (plan : Plan) (s : FetchState) (now : Nat) (ok : Bool) : Fetcher × List Interest :=
  let batch := (task.batchOf plan s).1
  if batch ≠ [] ∧ ok = false then (.failed .sendFailed, [])
  else
    let s' := task.refill plan s now
    let wires := batch.map (task.makeInterest plan)
    if s'.received = plan.totalSegs then
      match reassemble s'.segments with
      | some b => (.assembled plan s' b, wires)
      | none => (.failed .incomplete, wires)
    else (.waiting plan s', wires)

/-- The receive branch, for a packet that decodes. -/
def accept (plan : Plan) (s : FetchState) (d : Data) : Fetcher :=
  match (task.lib.lastSegment d.name).map UInt64.toNat with
  | none => .refilling plan s
  | some idx =>
    if idx < plan.totalSegs then
      match s.segments[idx]? with
      | none => .panicked .indexOutOfBounds
      | some (some _) => .refilling plan s
      | some none =>
        .refilling plan { s with
          segments := s.segments.set idx (some d.contentOrEmpty)
          received := s.received + 1
          inFlight := s.inFlight.retain fun _ f => f.seg != idx }
    else .refilling plan s

/-- The stale entries of the map, as segment and sequence number, in traversal order. -/
def stale (s : FetchState) (elapsedAt : Nat → Nat) (order : IterOrder (Nat × Nat)) :
    List (Nat × Nat) :=
  order.arrange ((s.inFlight.pairs.filter fun e =>
    task.lifetime ≤ elapsedAt e.1 - e.2.sentAt).map fun e => (e.2.seg, e.1))

/-- The timeout branch: request the stale segments again under new sequence numbers. -/
def retransmit (plan : Plan) (s : FetchState) (elapsedAt : Nat → Nat) (now : Nat)
    (order : IterOrder (Nat × Nat)) (resent : Bool) : Fetcher × List Interest :=
  let stale := task.stale s elapsedAt order
  if stale = [] then (.refilling plan s, [])
  else if resent then
    let kept := Table.eraseAll (stale.map Prod.snd) s.inFlight
    let (inFlight, seq) := Table.enlist s.seq (stale.map fun e => ⟨e.1, now⟩) kept
    (.refilling plan { s with inFlight, seq }, stale.map fun e => task.makeInterest plan e.1)
  else (.failed .sendFailed, [])

/-- `fetch_segmented` from one suspension point to the next. -/
def step : Fetcher → FetchEvent → Fetcher × List Interest
  | .start, .sent _ ok =>
    if ok then (.discovering, [task.discoveryInterest]) else (.failed .sendFailed, [])
  | .discovering, .packet d => (task.discover d, [])
  | .discovering, .undecodable => (.failed .decode, [])
  | .discovering, .closed => (.failed .connectionClosed, [])
  | .discovering, .timeout .. => (.failed .noResponse, [])
  | .refilling plan s, .sent now ok => task.loopHead plan s now ok
  | .waiting plan s, .packet d => (task.accept plan s d, [])
  | .waiting plan s, .undecodable => (.refilling plan s, [])
  | .waiting .., .closed => (.failed .closedDuringFetch, [])
  | .waiting plan s, .timeout elapsedAt now order resent =>
    task.retransmit plan s elapsedAt now order resent
  | f, _ => (f, [])

/-- `fetch_segmented` as a machine. -/
def machine : Machine Fetcher FetchEvent Interest := ⟨task.step⟩

/-- The fetch after the discovery Interest went out and `first` came back. -/
def fetch (first : Data) (later : List FetchEvent) : Fetcher :=
  task.machine.run .start (.sent 0 true :: .packet first :: later)

/-- `fetch` is a run of the loop. -/
theorem fetch_eq (first : Data) (later : List FetchEvent) :
    task.fetch first later = task.machine.run (task.discover first) later := rfl

/-- The variables after a content was stored in an empty slot. -/
def storedAt (s : FetchState) (idx : Nat) (c : Bytes) : FetchState where
  segments := s.segments.set idx (some c)
  inFlight := s.inFlight.retain fun _ f => f.seg != idx
  nextSeg := s.nextSeg
  received := s.received + 1
  seq := s.seq

/-- Storing a content empties no slot and fills no other one. -/
theorem empty_storedAt_iff {s : FetchState} {idx i : Nat} {c : Bytes}
    (h : s.segments[idx]? = some none) :
    (storedAt s idx c).segments[i]? = some none ↔ i ≠ idx ∧ s.segments[i]? = some none := by
  have hin := (List.getElem?_eq_some_iff.mp h).1
  by_cases he : i = idx
  · subst he
    simp [storedAt, List.getElem?_set_self hin]
  · rw [storedAt, List.getElem?_set_ne (Ne.symm he)]
    exact (and_iff_right he).symm

/-- The variables after the timeout branch sent its stale requests again at `now`. -/
def relisted (s : FetchState) (stale : List (Nat × Nat)) (now : Nat) : FetchState :=
  let kept := Table.eraseAll (stale.map Prod.snd) s.inFlight
  let listed := Table.enlist s.seq (stale.map fun e => ⟨e.1, now⟩) kept
  { s with inFlight := listed.1, seq := listed.2 }

/-- What the head of the loop can do. -/
theorem loopHead_cases (plan : Plan) (s : FetchState) (now : Nat) (ok : Bool) :
    task.loopHead plan s now ok = (.failed .sendFailed, []) ∨
    task.loopHead plan s now ok = (.waiting plan (task.refill plan s now),
      (task.batchOf plan s).1.map (task.makeInterest plan)) ∨
    ((task.refill plan s now).received = plan.totalSegs ∧
      ((∃ b, reassemble (task.refill plan s now).segments = some b ∧
        task.loopHead plan s now ok = (.assembled plan (task.refill plan s now) b,
          (task.batchOf plan s).1.map (task.makeInterest plan))) ∨
      (reassemble (task.refill plan s now).segments = none ∧
        task.loopHead plan s now ok = (.failed .incomplete,
          (task.batchOf plan s).1.map (task.makeInterest plan))))) := by
  unfold loopHead
  dsimp only
  split
  next => exact Or.inl rfl
  next =>
    split
    next hr =>
      refine Or.inr (Or.inr ⟨hr, ?_⟩)
      cases hb : reassemble (task.refill plan s now).segments with
      | some b => exact Or.inl ⟨b, rfl, rfl⟩
      | none => exact Or.inr ⟨rfl, rfl⟩
    next => exact Or.inr (Or.inl rfl)

/-- What the receive branch can do, with one slot for each segment: nothing, or store the
content under the packet's own number. -/
theorem accept_cases {plan : Plan} {s : FetchState} (hlen : s.segments.length = plan.totalSegs)
    (d : Data) : task.accept plan s d = .refilling plan s ∨
      ∃ k, task.lib.lastSegment d.name = some k ∧ k.toNat < plan.totalSegs ∧
        s.segments[k.toNat]? = some none ∧
        task.accept plan s d = .refilling plan (storedAt s k.toNat d.contentOrEmpty) := by
  unfold accept
  cases hk : task.lib.lastSegment d.name with
  | none => exact Or.inl rfl
  | some k =>
    simp only [Option.map_some]
    by_cases hlt : k.toNat < plan.totalSegs
    · have hin : k.toNat < s.segments.length := hlen ▸ hlt
      rw [if_pos hlt, List.getElem?_eq_getElem hin]
      cases hslot : s.segments[k.toNat] with
      | some c => exact Or.inl rfl
      | none =>
        have hempty : s.segments[k.toNat]? = some none := by
          rw [List.getElem?_eq_getElem hin, hslot]
        exact Or.inr ⟨k, rfl, hlt, hempty, rfl⟩
    · rw [if_neg hlt]
      exact Or.inl rfl

/-- What the timeout branch can do: nothing, repeat the stale requests, or fail to send. -/
theorem retransmit_cases (plan : Plan) (s : FetchState) (elapsedAt : Nat → Nat) (now : Nat)
    (order : IterOrder (Nat × Nat)) (resent : Bool) :
    task.retransmit plan s elapsedAt now order resent = (.refilling plan s, []) ∨
    task.retransmit plan s elapsedAt now order resent =
      (.refilling plan (relisted s (task.stale s elapsedAt order) now),
        (task.stale s elapsedAt order).map fun e => task.makeInterest plan e.1) ∨
    task.retransmit plan s elapsedAt now order resent = (.failed .sendFailed, []) := by
  unfold retransmit
  dsimp only
  split
  next => exact Or.inl rfl
  next =>
    cases resent with
    | true => exact Or.inr (Or.inl rfl)
    | false => exact Or.inr (Or.inr rfl)

end FetchTask

end NdnFwd
