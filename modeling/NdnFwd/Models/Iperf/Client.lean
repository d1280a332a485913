import NdnFwd.Core.Machine
import NdnFwd.Models.Iperf.Pipe

/-!
# The test loop of `run_client`

The loop of a forward test, one iteration per step: it is woken by a packet, by the
end of the connection, or by a timeout. Before the deadline a packet refills the
window and a timeout only gives up or sends again; afterwards the loop drains. What
the code reports is computed from the state in which the loop breaks.
-/

namespace NdnFwd.Iperf

/-- `drain_timeout`, in microseconds. -/
def drainTimeout : Nat := 500000

/-- The variables of the loop. -/
structure Client (κ ρ : Type*) where
  /-- Those it shares with the loop of the reverse test. -/
  pipe : Pipe κ ρ
  /-- Interests sent again. -/
  retxCount : Nat
  /-- Sequence numbers given up. -/
  timedOut : Nat
  /-- Whether the loop has ended. -/
  outcome : Outcome

/-- Statistics of the round-trip times. -/
structure RttStats where
  /-- Mean, rounded down. -/
  avg : Nat
  /-- Smallest. -/
  min : Nat
  /-- Largest. -/
  max : Nat
  /-- Median. -/
  p50 : Nat
  /-- 95th percentile. -/
  p95 : Nat
  /-- 99th percentile. -/
  p99 : Nat
  deriving DecidableEq, Repr

/-- The statistics, unless no round-trip time was taken. -/
def rttStats (rtts : List Nat) : Option RttStats :=
  let sorted := rtts.mergeSort
  let n := sorted.length
  if n = 0 then none
  else some {
    avg := sorted.sum / n
    min := sorted.getD 0 0
    max := sorted.getD (n - 1) 0
    p50 := sorted.getD (n / 2) 0
    p95 := sorted.getD (n * 95 / 100) 0
    p99 := sorted.getD (n * 99 / 100) 0 }

/-- The integer figures the client reports. -/
structure Figures where
  /-- `{sent} sent`. -/
  sent : Nat
  /-- `{received} received`. -/
  received : Nat
  /-- `{lost} lost`. -/
  lost : Nat
  /-- Excluded from loss. -/
  inFlightAtEnd : Nat
  /-- `({total_bytes} bytes)`. -/
  totalBytes : Nat
  /-- Retransmits. -/
  retxCount : Nat
  /-- Sequence numbers given up. -/
  timedOut : Nat
  /-- The RTT lines. -/
  rtt : Option RttStats
  deriving DecidableEq, Repr

section Loop

variable {κ ρ : Type*} (u : Setup κ ρ)

/-- The first window of Interests. -/
def Client.start (cc : κ) (initialWindow : Nat) (r : Readings) : Client κ ρ × List Interest :=
  let window := min initialWindow (u.congestion.floorWindow cc)
  let first := (Pipe.empty u cc).sendFresh u r window 0
  (⟨first.pipe, 0, 0, first.outcome⟩, first.interests)

/-- `Ok(Some(data_bytes))`. -/
def Client.onPacket (s : Client κ ρ) (raw : Bytes) (r : Readings) : Client κ ρ × List Interest :=
  let next := s.pipe.onPacket u raw r
  let outcome := if next.pipe.isDrained then .done else next.outcome
  ({ s with pipe := next.pipe, outcome := outcome }, next.interests)

/-- `Err(_)` once the loop drains. An empty table stays empty, so both tests are one. -/
def Client.drain (s : Client κ ρ) (now : Nat) : Client κ ρ :=
  let kept := s.pipe.timestamps.retain fun _ e => now - e.1 < drainTimeout
  { s with
    pipe := { s.pipe with timestamps := kept }
    outcome := if kept.size = 0 then .done else .running }

/-- What `Err(_)` does to stale Interests: drop those out of retries, send others again. -/
def Client.retry (s : Client κ ρ) (r : Readings) : Client κ ρ × List Interest :=
  let gone := s.pipe.gaveUp u r
  let again := (s.pipe.toResend u r).take (u.congestion.maxRetx s.pipe.cc)
  let next := (s.pipe.giveUp gone).resend u r again
  ({ pipe := next.pipe
     retxCount := s.retxCount + next.interests.length
     timedOut := s.timedOut + gone.length
     outcome := next.outcome }, next.interests)

/-- `Err(_)`. -/
def Client.onTimeout (s : Client κ ρ) (r : Readings) : Client κ ρ × List Interest :=
  if s.pipe.pastDeadline then (s.drain r.now, [])
  else if u.deadline ≤ r.check then ({ s with pipe := { s.pipe with pastDeadline := true } }, [])
  else s.retry u r

/-- The test loop. Once it has ended nothing moves it. -/
def client : Machine (Client κ ρ) Wakeup Interest where
  step s w :=
    match s.outcome, w with
    | .running, .packet raw r => s.onPacket u raw r
    | .running, .closed => ({ s with outcome := .done }, [])
    | .running, .timeout r => s.onTimeout u r
    | _, _ => (s, [])

/-- What the code after the loop computes. -/
def Client.figures (s : Client κ ρ) : Figures :=
  let sent := s.pipe.nextSeq
  let inFlightAtEnd := s.pipe.timestamps.size
  let effectiveSent := sent - inFlightAtEnd
  { sent := sent
    received := s.pipe.received
    lost := effectiveSent - s.pipe.received
    inFlightAtEnd := inFlightAtEnd
    totalBytes := s.pipe.totalBytes
    retxCount := s.retxCount
    timedOut := s.timedOut
    rtt := rttStats s.pipe.rtts }

/-- What is reported: nothing unless the loop ended by `break`. -/
def Client.report (s : Client κ ρ) : Option Figures :=
  if s.outcome = .done then some s.figures else none

end Loop

/-- Data `/t/f/d` for a digit `d`. -/
def digitAnswer (digit : UInt8) : Bytes :=
  [0x06, 0x14, 0x07, 0x09, 0x08, 0x01, 0x74, 0x08, 0x01, 0x66, 0x08, 0x01, digit,
    0x15, 0x00, 0x16, 0x03, 0x1B, 0x01, 0x00, 0x17, 0x00]

/-- A test of two seconds under `/t/f`, of at most ten Interests. -/
def twoSeconds : Setup Nat Nat where
  decode raw :=
    let digit := raw.getD 12 0
    if raw = digitAnswer digit then
      some ⟨[.generic [0x74], .generic [0x66], .generic [digit]], none, some []⟩
    else none
  congestion := Congestion.fixed
  rtt := RttFilter.whole
  flowPrefix := [.generic [0x74], .generic [0x66]]
  lifetime := 4000
  deadline := 2000000

end NdnFwd.Iperf
