import NdnFwd.Core.Counter
import NdnFwd.Models.Iperf.Client

/-!
# The interval lines and the final figures

The loop records each packet in four atomic counters, and another task empties them once in an
interval to print a line. All accesses are relaxed: each counter has a history of its own, in which
the records of the loop keep their order, but a packet may fall into one interval by its bytes and
into the next by its round-trip time. The totals do not depend on that.
-/

namespace NdnFwd.Iperf

/-- A call of the loop on `IntervalCounters`. -/
inductive Recording
  /-- `record`. -/
  | record (bytes : Nat)
  /-- `record_rtt`. -/
  | recordRtt (rttUs : Nat)
  deriving DecidableEq, Repr

/-- What it adds to `bytes`. -/
def Recording.bytes? : Recording → Option Nat
  | record bytes => some bytes
  | recordRtt _ => none

/-- What it adds to `pkts`. -/
def Recording.pkts? : Recording → Option Nat
  | record _ => some 1
  | recordRtt _ => none

/-- What it adds to `rtt_sum`. -/
def Recording.rttSum? : Recording → Option Nat
  | record _ => none
  | recordRtt rttUs => some rttUs

/-- What it adds to `rtt_count`. -/
def Recording.rttCount? : Recording → Option Nat
  | record _ => none
  | recordRtt _ => some 1

/-- Something for each of the `IntervalCounters`. -/
structure IntervalCounters (α : Type*) where
  bytes : α
  pkts : α
  rttSum : α
  rttCount : α
  deriving DecidableEq, Repr

/-- A history of a counter: the additions come in order, and so many times it is emptied. -/
structure HistoryOf (additions : List Nat) (drains : Nat) (ops : List Counter.Op) : Prop where
  added : Counter.added ops = additions
  drained : ops.count .drain = drains

/-- The histories of the counters if the loop makes some calls and the other task makes so many
calls of `drain`. -/
structure HistoriesOf (calls : List Recording) (drains : Nat)
    (ops : IntervalCounters (List Counter.Op)) : Prop where
  bytes : HistoryOf (calls.filterMap Recording.bytes?) drains ops.bytes
  pkts : HistoryOf (calls.filterMap Recording.pkts?) drains ops.pkts
  rttSum : HistoryOf (calls.filterMap Recording.rttSum?) drains ops.rttSum
  rttCount : HistoryOf (calls.filterMap Recording.rttCount?) drains ops.rttCount

/-- What the calls of `drain` return, each with a number from every counter. -/
def drained (ops : IntervalCounters (List Counter.Op)) : List (IntervalCounters Nat) :=
  let out := fun history => (Counter.word 64).sent 0 history
  (((out ops.bytes).zip (out ops.pkts)).zip ((out ops.rttSum).zip (out ops.rttCount))).map
    fun ((bytes, pkts), (rttSum, rttCount)) => ⟨bytes, pkts, rttSum, rttCount⟩

/-- What the counters hold after the last interval. No line tells of it. -/
def left (ops : IntervalCounters (List Counter.Op)) : IntervalCounters Nat :=
  let rest := fun history => (Counter.word 64).run 0 history
  ⟨rest ops.bytes, rest ops.pkts, rest ops.rttSum, rest ops.rttCount⟩

/-- The numbers of an interval line: bytes, packets and the mean round-trip time. -/
structure IntervalLine where
  bytes : Nat
  pkts : Nat
  rttAvgUs : Nat
  /-- Whether the line has a round-trip time. -/
  hasRtt : Bool
  deriving DecidableEq, Repr

/-- `rtt_sum.checked_div(rtt_count).unwrap_or(0)`, and the line around it. -/
def IntervalCounters.line (d : IntervalCounters Nat) : IntervalLine :=
  ⟨d.bytes, d.pkts, if d.rttCount = 0 then 0 else d.rttSum / d.rttCount, 0 < d.rttCount⟩

section Histories

variable {calls : List Recording} {drains : Nat} {ops : IntervalCounters (List Counter.Op)}

/-- Every drain reports a number. -/
theorem HistoryOf.length_sent {additions : List Nat} {history : List Counter.Op}
    (h : HistoryOf additions drains history) :
    ((Counter.word 64).sent 0 history).length = drains := by
  rw [Counter.length_sent, h.drained]

/-- What is drained and what is left sum up to what was added. -/
theorem HistoryOf.total {additions : List Nat} {history : List Counter.Op}
    (h : HistoryOf additions drains history) (hfit : additions.sum < 2 ^ 64) :
    ((Counter.word 64).sent 0 history).sum + (Counter.word 64).run 0 history = additions.sum := by
  have hsum : 0 + (Counter.added history).sum < 2 ^ 64 := by rwa [h.added, Nat.zero_add]
  have htotal := Counter.total_eq hsum
  rwa [h.added, Nat.zero_add] at htotal

private theorem map_zip_fst {α β γ : Type*} (f : α → γ) {as : List α} {bs : List β}
    (h : as.length ≤ bs.length) : ((as.zip bs).map fun x => f x.1) = as.map f := by
  conv_rhs => rw [← List.map_fst_zip h, List.map_map]
  rfl

private theorem map_zip_snd {α β γ : Type*} (f : β → γ) {as : List α} {bs : List β}
    (h : bs.length ≤ as.length) : ((as.zip bs).map fun x => f x.2) = bs.map f := by
  conv_rhs => rw [← List.map_snd_zip h, List.map_map]
  rfl

/-- Column by column, the calls of `drain` return what the histories report. -/
theorem drained_columns (h : HistoriesOf calls drains ops) :
    (drained ops).map IntervalCounters.bytes = (Counter.word 64).sent 0 ops.bytes ∧
      (drained ops).map IntervalCounters.pkts = (Counter.word 64).sent 0 ops.pkts ∧
      (drained ops).map IntervalCounters.rttSum = (Counter.word 64).sent 0 ops.rttSum ∧
      (drained ops).map IntervalCounters.rttCount = (Counter.word 64).sent 0 ops.rttCount := by
  have hb := h.bytes.length_sent
  have hp := h.pkts.length_sent
  have hs := h.rttSum.length_sent
  have hc := h.rttCount.length_sent
  have hleft : (((Counter.word 64).sent 0 ops.bytes).zip
      ((Counter.word 64).sent 0 ops.pkts)).length = drains := by
    rw [List.length_zip, hb, hp, Nat.min_self]
  have hright : (((Counter.word 64).sent 0 ops.rttSum).zip
      ((Counter.word 64).sent 0 ops.rttCount)).length = drains := by
    rw [List.length_zip, hs, hc, Nat.min_self]
  have hsame := hleft.trans hright.symm
  simp only [drained, List.map_map]
  refine ⟨?_, ?_, ?_, ?_⟩
  · exact (map_zip_fst Prod.fst hsame.le).trans (List.map_fst_zip (hb.trans hp.symm).le)
  · exact (map_zip_fst Prod.snd hsame.le).trans (List.map_snd_zip (hp.trans hb.symm).le)
  · exact (map_zip_snd Prod.fst hsame.ge).trans (List.map_fst_zip (hs.trans hc.symm).le)
  · exact (map_zip_snd Prod.snd hsame.ge).trans (List.map_snd_zip (hc.trans hs.symm).le)

end Histories

section Loop

variable {κ ρ : Type*} {u : Setup κ ρ}

/-- The calls of the loop at one wakeup. -/
def Client.calls (u : Setup κ ρ) (s : Client κ ρ) (w : Wakeup) : List Recording :=
  match s.outcome, w with
  | .running, .packet raw r =>
    match s.pipe.hit u raw with
    | some (_, t0) => [.recordRtt (r.elapsed - t0), .record raw.length]
    | none => [.record raw.length]
  | _, _ => []

/-- The calls of a whole run. -/
def calls (u : Setup κ ρ) (s : Client κ ρ) (ws : List Wakeup) : List Recording :=
  ((client u).visits s ws).flatMap fun v => v.1.calls u v.2

/-- The totals after some calls. -/
structure Recorded (s s' : Pipe κ ρ) (calls : List Recording) : Prop where
  bytes : s'.totalBytes = s.totalBytes + (calls.filterMap Recording.bytes?).sum
  pkts : s'.received = s.received + (calls.filterMap Recording.pkts?).sum
  rtts : s'.rtts = s.rtts ++ calls.filterMap Recording.rttSum?
  rttCount : (calls.filterMap Recording.rttCount?).sum =
    (calls.filterMap Recording.rttSum?).length

/-- Nothing is recorded. -/
theorem Recorded.refl (s : Pipe κ ρ) : Recorded s s [] := ⟨rfl, rfl, (List.append_nil _).symm, rfl⟩

/-- More is recorded. -/
theorem Recorded.trans {s s' s'' : Pipe κ ρ} {calls more : List Recording}
    (h : Recorded s s' calls) (h' : Recorded s' s'' more) : Recorded s s'' (calls ++ more) where
  bytes := by rw [h'.bytes, h.bytes, List.filterMap_append, List.sum_append, Nat.add_assoc]
  pkts := by rw [h'.pkts, h.pkts, List.filterMap_append, List.sum_append, Nat.add_assoc]
  rtts := by rw [h'.rtts, h.rtts, List.filterMap_append, List.append_assoc]
  rttCount := by
    rw [List.filterMap_append, List.sum_append, h.rttCount, h'.rttCount, List.filterMap_append,
      List.length_append]

/-- An operation that leaves the totals alone. -/
theorem Recorded.of_eq {s s' : Pipe κ ρ} (hb : s'.totalBytes = s.totalBytes)
    (hp : s'.received = s.received) (hr : s'.rtts = s.rtts) : Recorded s s' [] :=
  ⟨hb, hp, hr.trans (List.append_nil _).symm, rfl⟩

private theorem recorded_sendFresh (r : Readings) (n i : Nat) (s : Pipe κ ρ) :
    Recorded s (s.sendFresh u r n i).pipe [] := by
  induction n generalizing i s with
  | zero => exact Recorded.refl s
  | succ n ih =>
    rw [Pipe.sendFresh]
    split_ifs
    · exact (Recorded.of_eq rfl rfl rfl : Recorded s (s.issue (r.stamp i)) []).trans (ih _ _)
    · exact Recorded.refl s

private theorem recorded_sendAgain (r : Readings) (again : List (Nat × Nat)) (i : Nat)
    (s : Pipe κ ρ) :
    Recorded s (s.sendAgain u r again i).pipe [] := by
  induction again generalizing i s with
  | nil => exact Recorded.refl s
  | cons x again ih =>
    rw [Pipe.sendAgain]
    split_ifs
    · exact (Recorded.of_eq rfl rfl rfl : Recorded s (s.reissue x.1 x.2 (r.stamp i)) []).trans
        (ih _ _)
    · exact Recorded.refl s

private theorem recorded_resend (r : Readings) (again : List (Nat × Nat)) (s : Pipe κ ρ) :
    Recorded s (s.resend u r again).pipe [] := by
  rw [Pipe.resend]
  split_ifs
  · exact Recorded.refl s
  · exact (Recorded.of_eq rfl rfl rfl : Recorded s (s.backOff u) []).trans
      (recorded_sendAgain r again 0 _)

private theorem recorded_onTimeout (s : Client κ ρ) (r : Readings) :
    Recorded s.pipe (s.onTimeout u r).1.pipe [] := by
  rw [Client.onTimeout]
  split_ifs
  · exact Recorded.of_eq rfl rfl rfl
  · exact Recorded.of_eq rfl rfl rfl
  · exact (Recorded.of_eq rfl rfl rfl : Recorded s.pipe (s.pipe.giveUp _) []).trans
      (recorded_resend r _ _)

/-- The packet itself is recorded. -/
theorem recorded_onPacket (s : Pipe κ ρ) (raw : Bytes) (r : Readings) :
    Recorded s (s.onPacket u raw r).pipe
      (match s.hit u raw with
        | some (_, t0) => [.recordRtt (r.elapsed - t0), .record raw.length]
        | none => [.record raw.length]) := by
  have haccept : Recorded s (s.accept u raw r.elapsed)
      (match s.hit u raw with
        | some (_, t0) => [.recordRtt (r.elapsed - t0), .record raw.length]
        | none => [.record raw.length]) := by
    have hhit : ∀ cc, ({ s with
        totalBytes := s.totalBytes + raw.length
        received := s.received + 1
        cc := cc } : Pipe κ ρ).hit u raw = s.hit u raw := fun _ => rfl
    simp only [Pipe.accept, hhit]
    cases s.hit u raw with
    | none => exact ⟨rfl, rfl, (List.append_nil _).symm, rfl⟩
    | some e => exact ⟨rfl, rfl, rfl, rfl⟩
  have hrest : Recorded (s.accept u raw r.elapsed) (s.onPacket u raw r).pipe [] := by
    simp only [Pipe.onPacket]
    split_ifs
    · exact Recorded.refl _
    · exact recorded_sendFresh r _ 0 _
    · exact Recorded.of_eq rfl rfl rfl
  simpa using haccept.trans hrest

private theorem recorded_step (s : Client κ ρ) (w : Wakeup) :
    Recorded s.pipe ((client u).step s w).1.pipe (s.calls u w) := by
  cases ho : s.outcome with
  | running =>
    cases w with
    | packet raw r =>
      simp only [client, Client.calls, ho]
      exact recorded_onPacket s.pipe raw r
    | closed =>
      simp only [client, Client.calls, ho]
      exact Recorded.refl _
    | timeout r =>
      simp only [client, Client.calls, ho]
      exact recorded_onTimeout s r
  | _ =>
    simp only [client, Client.calls, ho]
    exact Recorded.refl _

/-- The loop has recorded what its own totals say. -/
theorem recorded_run (s : Client κ ρ) (ws : List Wakeup) :
    Recorded s.pipe ((client u).run s ws).pipe (calls u s ws) := by
  induction ws generalizing s with
  | nil => exact Recorded.refl _
  | cons w ws ih => exact (recorded_step s w).trans (ih _)

private theorem recorded_start (cc : κ) (initialWindow : Nat) (r : Readings) :
    Recorded (Pipe.empty u cc) (Client.start u cc initialWindow r).1.pipe [] :=
  recorded_sendFresh r _ 0 _

/-- The lines of all intervals, and what was recorded after the last of them, sum up to the figures
of the final report, as far as a counter can hold them. A line counts once its numbers are taken
from the counters: the last one may be lost, when the task is aborted while it sends. -/
structure Client.SumsUp (s : Client κ ρ) (drains : Nat)
    (ops : IntervalCounters (List Counter.Op)) : Prop where
  lines : ((drained ops).map IntervalCounters.line).length = drains
  bytes : s.figures.totalBytes < 2 ^ 64 →
    (((drained ops).map IntervalCounters.line).map IntervalLine.bytes).sum + (left ops).bytes =
      s.figures.totalBytes
  pkts : s.figures.received < 2 ^ 64 →
    (((drained ops).map IntervalCounters.line).map IntervalLine.pkts).sum + (left ops).pkts =
      s.figures.received
  rttSum : s.pipe.rtts.sum < 2 ^ 64 →
    ((drained ops).map IntervalCounters.rttSum).sum + (left ops).rttSum = s.pipe.rtts.sum
  rttCount : s.pipe.rtts.length < 2 ^ 64 →
    ((drained ops).map IntervalCounters.rttCount).sum + (left ops).rttCount = s.pipe.rtts.length

/-- Whatever the memory order did to single lines, over a whole test they sum up. -/
theorem intervals_sumUp (cc : κ) (initialWindow : Nat) (r : Readings) (ws : List Wakeup)
    {drains : Nat} {ops : IntervalCounters (List Counter.Op)}
    (h : HistoriesOf (calls u (Client.start u cc initialWindow r).1 ws) drains ops) :
    ((client u).run (Client.start u cc initialWindow r).1 ws).SumsUp drains ops := by
  have hrun := recorded_run (u := u) (Client.start u cc initialWindow r).1 ws
  obtain ⟨hb, hp, hr, hc⟩ := (recorded_start cc initialWindow r).trans hrun
  obtain ⟨hbytes, hpkts, hsum, hcount⟩ := drained_columns h
  rw [List.nil_append] at hb hp hr hc
  simp only [Pipe.empty, Nat.zero_add, List.nil_append] at hb hp hr
  refine ⟨?_, fun hfit => ?_, fun hfit => ?_, fun hfit => ?_, fun hfit => ?_⟩
  · rw [List.length_map, ← List.length_map IntervalCounters.bytes, hbytes, h.bytes.length_sent]
  · have htotal := h.bytes.total (hb ▸ hfit)
    rw [← hb, ← hbytes] at htotal
    rw [List.map_map]
    exact htotal
  · have htotal := h.pkts.total (hp ▸ hfit)
    rw [← hp, ← hpkts] at htotal
    rw [List.map_map]
    exact htotal
  · rw [hr] at hfit ⊢
    rw [hsum]
    exact h.rttSum.total hfit
  · rw [hr, ← hc] at hfit ⊢
    rw [hcount]
    exact h.rttCount.total hfit

end Loop

/-- Three answers, the last one after a timeout. -/
def threeAnswers : List Wakeup :=
  [.packet (digitAnswer 0x30) (.instant 1000), .packet (digitAnswer 0x31) (.instant 1500),
    .timeout (.instant 101500), .packet (digitAnswer 0x32) (.instant 102000)]

/-- Two intervals. The first packet falls into the first one, except for its round-trip time; the
second packet falls into the first one by the count, and into the second by the rest. -/
def torn : IntervalCounters (List Counter.Op) where
  bytes := [.add 22, .drain, .add 22, .drain, .add 22]
  pkts := [.add 1, .add 1, .drain, .drain, .add 1]
  rttSum := [.drain, .add 1000, .add 1500, .drain, .add 102000]
  rttCount := [.add 1, .drain, .add 1, .drain, .add 1]

/-- The first line has a round-trip time of 0 and the second of 2500 microseconds. -/
theorem torn_sumsUp :
    (drained torn).map IntervalCounters.line = [⟨22, 2, 0, true⟩, ⟨22, 0, 2500, true⟩] ∧
      ((client twoSeconds).run (Client.start twoSeconds 4 4 (.instant 0)).1 threeAnswers).SumsUp
        2 torn :=
  ⟨by decide, intervals_sumUp 4 4 (.instant 0) threeAnswers
    ⟨⟨rfl, rfl⟩, ⟨rfl, rfl⟩, ⟨rfl, rfl⟩, ⟨rfl, rfl⟩⟩⟩

end NdnFwd.Iperf
