import NdnFwd.Core.Machine
import NdnFwd.Models.Iperf.Client
import NdnFwd.Models.Iperf.Server

/-!
# The two ends of a reverse test

`run_reverse_consumer` fetches from the client. Its loop is that of the client with one
difference: it refills the window after every event, so it has something outstanding
whenever it waits before the deadline. `run_reverse_producer` serves the client's end,
and afterwards asks for the result.
-/

namespace NdnFwd.Iperf

/-- The variables of the loop of `run_reverse_consumer`. -/
structure Consumer (κ ρ : Type*) where
  /-- Those it shares with the loop of the forward test. -/
  pipe : Pipe κ ρ
  /-- Whether the loop has ended. -/
  outcome : Outcome

/-- The result of a reverse test, as it is published. -/
structure ReverseResult where
  /-- `flow_id`. -/
  flowId : Bytes
  /-- Duration in microseconds; `duration_s` and `throughput` are written from it. -/
  elapsed : Nat
  /-- `transferred_bytes`. -/
  transferredBytes : UInt64
  /-- `sent`. -/
  sent : UInt64
  /-- `received`. -/
  received : UInt64
  /-- `lost`. -/
  lost : UInt64
  /-- `rtt_us`, of which p95 is not written. -/
  rtt : Option RttStats
  deriving DecidableEq, Repr

/-- The counts a client prints for a reverse test. -/
structure Summary where
  /-- `transferred_bytes`. -/
  transferredBytes : UInt64
  /-- `sent`. -/
  sent : UInt64
  /-- `received`. -/
  received : UInt64
  /-- `lost`. -/
  lost : UInt64
  deriving DecidableEq, Repr

/-- The counts of a result. -/
def ReverseResult.summary (r : ReverseResult) : Summary :=
  ⟨r.transferredBytes, r.sent, r.received, r.lost⟩

section Consumer

variable {κ ρ : Type*} (u : Setup κ ρ)

/-- The refill at the end of every round. -/
def Sends.refill (a : Sends κ ρ) (r : Readings) : Sends κ ρ :=
  if a.ok ∧ a.pipe.pastDeadline = false ∧ r.recheck < u.deadline then
    let more := a.pipe.fill u r a.interests.length
    ⟨more.pipe, a.interests ++ more.interests, more.ok⟩
  else a

/-- The consumer before its first event. It has sent nothing yet. -/
def Consumer.start (cc : κ) : Consumer κ ρ := ⟨Pipe.empty u cc, .running⟩

/-- A round that ends in a refill. -/
def Consumer.round (a : Sends κ ρ) (r : Readings) : Consumer κ ρ × List Interest :=
  let next := a.refill u r
  (⟨next.pipe, next.outcome⟩, next.interests)

/-- `Ok(Some(data_bytes))`. -/
def Consumer.onPacket (s : Consumer κ ρ) (raw : Bytes) (r : Readings) :
    Consumer κ ρ × List Interest :=
  let next := s.pipe.onPacket u raw r
  if next.pipe.isDrained then (⟨next.pipe, .done⟩, next.interests)
  else Consumer.round u next r

/-- The check at the start of `Err(_)`. -/
def Consumer.checked (s : Consumer κ ρ) (r : Readings) : Pipe κ ρ :=
  if u.deadline ≤ r.check then { s.pipe with pastDeadline := true } else s.pipe

/-- `Err(_)`. Every stale Interest with retries left is sent again. -/
def Consumer.onTimeout (s : Consumer κ ρ) (r : Readings) : Consumer κ ρ × List Interest :=
  let p := s.checked u r
  if p.isDrained then (⟨p, .done⟩, [])
  else Consumer.round u ((p.giveUp (p.gaveUp u r)).resend u r (p.toResend u r)) r

/-- The loop of `run_reverse_consumer`. Once it has ended nothing moves it. -/
def consumer : Machine (Consumer κ ρ) Wakeup Interest where
  step s w :=
    match s.outcome, w with
    | .running, .packet raw r => s.onPacket u raw r
    | .running, .closed => ({ s with outcome := .done }, [])
    | .running, .timeout r => s.onTimeout u r
    | _, _ => (s, [])

/-- The result computed once the loop has ended by `break`. -/
def Consumer.result (s : Consumer κ ρ) (flowId : Bytes) (elapsed : Nat) : ReverseResult where
  flowId := flowId
  elapsed := elapsed
  transferredBytes := UInt64.ofNat s.pipe.totalBytes
  sent := UInt64.ofNat s.pipe.nextSeq
  received := UInt64.ofNat s.pipe.received
  lost := UInt64.ofNat (s.pipe.nextSeq - s.pipe.received)
  rtt := rttStats s.pipe.rtts

end Consumer

section Refill

variable {κ ρ : Type*} {u : Setup κ ρ}

/-- What a wakeup reads, if it reads anything. -/
def Wakeup.readings : Wakeup → Option Readings
  | .packet _ r => some r
  | .timeout r => some r
  | .closed => none

/-- The window is refilled. -/
theorem Pipe.Counted.refill {a : Sends κ ρ} (h : a.pipe.Counted) (r : Readings) :
    (a.refill u r).pipe.Counted := by
  rw [Sends.refill]
  split_ifs
  · exact h.sendFresh r _ _
  · exact h

/-- A refill before the deadline leaves a full window outstanding. -/
theorem Sends.le_inFlight_refill {a : Sends κ ρ} {r : Readings} (hr : r.recheck < u.deadline)
    (hok : (a.refill u r).ok = true) (hp : (a.refill u r).pipe.pastDeadline = false) :
    u.congestion.floorWindow (a.refill u r).pipe.cc ≤ (a.refill u r).pipe.inFlight := by
  rw [Sends.refill] at hok hp ⊢
  split_ifs at hok hp ⊢ with hgo
  · rw [Pipe.fill, Pipe.cc_sendFresh]
    exact Pipe.le_inFlight_fill hok
  · exact absurd ⟨hok, hp, hr⟩ hgo

/-- Nothing moves a loop that has ended. -/
theorem Consumer.step_ended {s : Consumer κ ρ} (h : s.outcome ≠ .running) (w : Wakeup) :
    (consumer u).step s w = (s, []) := by
  cases ho : s.outcome with
  | running => exact absurd ho h
  | _ => simp only [consumer, ho]

/-- The deadline is checked. -/
theorem Consumer.counted_checked {s : Consumer κ ρ} (h : s.pipe.Counted) (r : Readings) :
    (s.checked u r).Counted := by
  rw [Consumer.checked]
  split_ifs
  · exact ⟨h.below, h.counted⟩
  · exact h

/-- The loop counts its outstanding Interests correctly throughout. -/
theorem Consumer.counted_step {s : Consumer κ ρ} (h : s.pipe.Counted) (w : Wakeup) :
    ((consumer u).step s w).1.pipe.Counted := by
  by_cases ho : s.outcome = .running
  · cases w with
    | packet raw r =>
      simp only [consumer, ho, Consumer.onPacket]
      split_ifs
      · exact h.onPacket raw r
      · exact (h.onPacket raw r).refill r
    | closed =>
      simp only [consumer, ho]
      exact h
    | timeout r =>
      have hchecked := counted_checked (u := u) h r
      simp only [consumer, ho, Consumer.onTimeout]
      split_ifs
      · exact hchecked
      · exact ((hchecked.giveUp r).resend r fun _ hx => Pipe.mem_of_mem_toResend hx).refill r
  · rw [Consumer.step_ended ho]
    exact h

/-- Whenever the loop goes on before the deadline, it has just refilled the window. -/
theorem Consumer.refilled {s : Consumer κ ρ} {w : Wakeup} {r : Readings}
    (hw : w.readings = some r) (hr : r.recheck < u.deadline)
    (hrun : ((consumer u).step s w).1.outcome = .running)
    (hp : ((consumer u).step s w).1.pipe.pastDeadline = false) :
    u.congestion.floorWindow ((consumer u).step s w).1.pipe.cc ≤
      ((consumer u).step s w).1.pipe.inFlight := by
  have hs : s.outcome = .running := by
    by_contra hs
    rw [Consumer.step_ended hs] at hrun
    exact hs hrun
  have hround : ∀ a : Sends κ ρ, (Consumer.round u a r).1.outcome = .running →
      (Consumer.round u a r).1.pipe.pastDeadline = false →
        u.congestion.floorWindow (Consumer.round u a r).1.pipe.cc ≤
          (Consumer.round u a r).1.pipe.inFlight := by
    intro a hrun hp
    refine Sends.le_inFlight_refill hr ?_ hp
    by_contra hok
    simp only [Consumer.round, Sends.outcome, if_neg hok] at hrun
    cases hrun
  cases w with
  | packet raw r' =>
    obtain rfl := Option.some.inj hw
    simp only [consumer, hs, Consumer.onPacket] at hrun hp ⊢
    split_ifs at hrun hp ⊢
    exact hround _ hrun hp
  | closed => cases hw
  | timeout r' =>
    obtain rfl := Option.some.inj hw
    simp only [consumer, hs, Consumer.onTimeout] at hrun hp ⊢
    split_ifs at hrun hp ⊢
    exact hround _ hrun hp

/-- After every event that the consumer handles before the deadline, at least a window of
Interests is outstanding. -/
theorem Consumer.window_outstanding (cc : κ) {ws : List Wakeup} {w : Wakeup} {r : Readings}
    (hw : w.readings = some r) (hr : r.recheck < u.deadline)
    (hrun : ((consumer u).run (Consumer.start u cc) (ws ++ [w])).outcome = .running)
    (hp : ((consumer u).run (Consumer.start u cc) (ws ++ [w])).pipe.pastDeadline = false) :
    u.congestion.floorWindow ((consumer u).run (Consumer.start u cc) (ws ++ [w])).pipe.cc ≤
      ((consumer u).run (Consumer.start u cc) (ws ++ [w])).pipe.timestamps.size := by
  have hcounted : ((consumer u).run (Consumer.start u cc) (ws ++ [w])).pipe.Counted :=
    (consumer u).run_invariant (I := fun s => s.pipe.Counted) (P := fun _ => True)
      (fun s w h _ => Consumer.counted_step h w) (Pipe.counted_empty cc) fun _ _ => trivial
  rw [← hcounted.counted]
  rw [Machine.run_snoc] at hrun hp ⊢
  exact Consumer.refilled hw hr hrun hp

end Refill

end NdnFwd.Iperf
