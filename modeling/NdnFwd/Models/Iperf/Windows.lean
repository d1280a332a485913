import NdnFwd.Models.Iperf.Attempts

/-!
# The books of the sliding windows

At the head of either loop the count of outstanding Interests is right, every sequence number
given out was sent, none more often than the retries allow, and filling up stops at the window.
For the client this ends with the test: the drain afterwards drops entries without counting.
-/

namespace NdnFwd.Iperf

open Attempts

variable {κ ρ : Type*} (u : Setup κ ρ)

/-- How often the Interest for a sequence number occurs. -/
def timesSent (interests : List Interest) (seq : Nat) : Nat :=
  interests.count (seqInterest u seq)

/-- How often steps that began before the sequence number was given out have sent it. -/
def firstSent {σ : Type*} (M : Machine σ Wakeup Interest) (pipe : σ → Pipe κ ρ) (s : σ)
    (ws : List Wakeup) (seq : Nat) : Nat :=
  ((M.visits s ws).map fun v =>
    if (pipe v.1).nextSeq ≤ seq then timesSent u (M.step v.1 v.2).2 seq else 0).sum

/-- The books of one loop, given how often each sequence number was sent and first sent. -/
structure Pipe.Booked (s : Pipe κ ρ) (sent first : Nat → Nat) : Prop where
  inFlight : s.inFlight = s.timestamps.size
  below : ∀ seq ∈ s.timestamps, seq < s.nextSeq
  retries : ∀ seq sentAt retries, s.timestamps.lookup seq = some (sentAt, retries) →
    retries ≤ maxRetries
  first : ∀ seq < s.nextSeq, first seq = 1
  sent : ∀ seq < s.nextSeq, sent seq ≤ 1 + maxRetries

/-- The test of a client keeps its books. -/
def Client.KeepsBooks (cc : κ) (initialWindow : Nat) (r : Readings) (ws : List Wakeup) : Prop :=
  let start := Client.start u cc initialWindow r
  ((client u).run start.1 ws).Testing →
    ((client u).run start.1 ws).pipe.Booked
      (timesSent u (start.2 ++ (client u).sent start.1 ws))
      fun seq => timesSent u start.2 seq + firstSent u (client u) Client.pipe start.1 ws seq

/-- The loop of a consumer keeps its books. -/
def Consumer.KeepsBooks (cc : κ) (ws : List Wakeup) : Prop :=
  let start := Consumer.start u cc
  ((consumer u).run start ws).outcome = .running →
    ((consumer u).run start ws).pipe.Booked
      (timesSent u ((consumer u).sent start ws))
      (firstSent u (consumer u) Consumer.pipe start ws)

/-- A fill never leaves more in flight than the window, unless there was more before. -/
def Pipe.FillBounded (s : Pipe κ ρ) (r : Readings) (i : Nat) : Prop :=
  (s.fill u r i).pipe.inFlight ≤ max s.inFlight (u.congestion.floorWindow s.cc)

variable {u}

private theorem seqInterest_injective : Function.Injective (seqInterest u) := by
  intro k k' h
  have hname : seqName u k = seqName u k' := congrArg Interest.name h
  have hlast := List.append_cancel_left hname
  have hvalue := congrArg NameComponent.value (List.singleton_inj.mp hlast)
  exact Digits.decimal_injective hvalue

private theorem timesSent_map (sends : List Nat) (seq : Nat) :
    timesSent u (sends.map (seqInterest u)) seq = sends.count seq :=
  List.count_map_of_injective _ _ seqInterest_injective _

/-- The row of fresh Interests is never longer than asked for. -/
theorem Pipe.inFlight_sendFresh_le (s : Pipe κ ρ) (r : Readings) (n i : Nat) :
    (s.sendFresh u r n i).pipe.inFlight ≤ s.inFlight + n := by
  induction n generalizing i s with
  | zero => exact Nat.le_refl _
  | succ n ih =>
    rw [Pipe.sendFresh]
    split_ifs
    · have hrest := ih (s.issue (r.stamp i)) (i + 1)
      have hissue : (s.issue (r.stamp i)).inFlight = s.inFlight + 1 := rfl
      dsimp only
      omega
    · exact Nat.le_add_right ..

private theorem Pipe.fill_bounded (s : Pipe κ ρ) (r : Readings) (i : Nat) :
    s.FillBounded u r i := by
  have h := s.inFlight_sendFresh_le (u := u) r (u.congestion.floorWindow s.cc - s.inFlight) i
  rw [FillBounded, Pipe.fill]
  omega

/-- What has been sent agrees with the pipeline. -/
structure Pipe.Ledger (u : Setup κ ρ) (s : Pipe κ ρ) (interests : List Interest)
    (first : Nat → Nat) : Prop where
  counted : s.Counted
  kept : ∃ sends, interests = sends.map (seqInterest u) ∧ Kept maxRetries s.sheet sends
  first : ∀ seq, first seq = if seq < s.nextSeq then 1 else 0

variable {s s' : Pipe κ ρ} {interests more : List Interest} {first : Nat → Nat}

private theorem Pipe.ledger_empty (cc : κ) : (Pipe.empty u cc).Ledger u [] fun _ => 0 where
  counted := counted_empty cc
  kept := ⟨[], rfl, kept_start maxRetries⟩
  first seq := (if_neg (Nat.not_lt_zero seq)).symm

/-- A move keeps the ledger. -/
theorem Pipe.Ledger.posts (h : s.Ledger u interests first) (hs' : s'.Counted)
    (hp : s.Posts u s' more) : s'.Ledger u (interests ++ more)
      fun seq => first seq + if s.nextSeq ≤ seq then timesSent u more seq else 0 := by
  obtain ⟨again, fresh, hm, rfl⟩ := hp
  obtain ⟨sends, rfl, hkept⟩ := h.kept
  refine ⟨hs', ⟨_, (List.map_append ..).symm, hkept.moves hm⟩, fun seq => ?_⟩
  have hle : s.nextSeq ≤ s'.nextSeq := Nat.le.intro hm.next.symm
  rw [h.first, timesSent_map]
  by_cases hseq : s.nextSeq ≤ seq
  · rw [if_neg (Nat.not_lt.mpr hseq), if_pos hseq, hm.count_new hseq, Nat.zero_add]
    rfl
  · have hlt := Nat.lt_of_not_le hseq
    rw [if_pos hlt, if_neg hseq, if_pos (hlt.trans_le hle)]

/-- The ledger says what the books say. -/
theorem Pipe.Ledger.booked (h : s.Ledger u interests first) :
    s.Booked (timesSent u interests) first := by
  obtain ⟨sends, rfl, hkept⟩ := h.kept
  refine ⟨h.counted.counted, h.counted.below, fun seq sentAt retries hlookup => ?_,
    fun seq hseq => by rw [h.first, if_pos hseq], fun seq hseq => ?_⟩
  · exact (hkept.outstanding seq retries (sheet_retries_eq_some.mpr ⟨sentAt, hlookup⟩)).2.1
  · rw [timesSent_map]
    exact hkept.sent seq hseq

private theorem firstSent_snoc {σ : Type*} (M : Machine σ Wakeup Interest) (pipe : σ → Pipe κ ρ)
    (s : σ)
    (ws : List Wakeup) (w : Wakeup) (seq : Nat) :
    firstSent u M pipe s (ws ++ [w]) seq = firstSent u M pipe s ws seq +
      if (pipe (M.run s ws)).nextSeq ≤ seq then timesSent u (M.step (M.run s ws) w).2 seq
      else 0 := by
  rw [firstSent, M.visits_append, List.map_append, List.sum_append]
  rfl

/-- The consumer keeps its ledger throughout. -/
theorem Consumer.ledger_run (cc : κ) (ws : List Wakeup) :
    ((consumer u).run (Consumer.start u cc) ws).pipe.Ledger u
      ((consumer u).sent (Consumer.start u cc) ws)
      (firstSent u (consumer u) Consumer.pipe (Consumer.start u cc) ws) := by
  induction ws using List.reverseRecOn with
  | nil => exact Pipe.ledger_empty cc
  | append_singleton ws w ih =>
    rw [Machine.run_snoc, Machine.sent_snoc, funext (firstSent_snoc _ _ _ ws w)]
    exact ih.posts (counted_step ih.counted w) (posts_step ih.counted w)

/-- The client keeps its ledger as long as the test goes on. -/
theorem Client.ledger_run (cc : κ) (initialWindow : Nat) (r : Readings) (ws : List Wakeup)
    (ht : ((client u).run (Client.start u cc initialWindow r).1 ws).Testing) :
    ((client u).run (Client.start u cc initialWindow r).1 ws).pipe.Ledger u
      ((Client.start u cc initialWindow r).2 ++
        (client u).sent (Client.start u cc initialWindow r).1 ws)
      fun seq => timesSent u (Client.start u cc initialWindow r).2 seq +
        firstSent u (client u) Client.pipe (Client.start u cc initialWindow r).1 ws seq := by
  induction ws using List.reverseRecOn with
  | nil =>
    have hempty := Pipe.ledger_empty (u := u) cc
    have hposts := ((Pipe.empty u cc).drops_refl.posts (u := u) hempty.counted).fresh hempty.counted
      r (min initialWindow (u.congestion.floorWindow cc)) 0
    have hstart := hempty.posts (hempty.counted.sendFresh r _ 0) hposts
    simpa [Client.start, firstSent, Machine.visits, Pipe.empty] using hstart
  | append_singleton ws w ih =>
    rw [Machine.run_snoc] at ht ⊢
    have hprev := ih (testing_step ht).1
    have hsound := sound_step (sound_run (sound_start cc initialWindow r) ws) ht
    rw [Machine.sent_snoc, ← List.append_assoc, funext (firstSent_snoc _ _ _ ws w)]
    have hnext := hprev.posts hsound.counted (posts_step hprev.counted ht)
    simpa only [Nat.add_assoc] using hnext

/-- Both sliding windows keep their books at every loop head. -/
theorem windows_keep_books (u : Setup κ ρ) (cc : κ) :
    (∀ initialWindow r ws, Client.KeepsBooks u cc initialWindow r ws) ∧
      (∀ ws, Consumer.KeepsBooks u cc ws) ∧ ∀ (s : Pipe κ ρ) r i, s.FillBounded u r i := by
  refine ⟨fun initialWindow r ws ht => ?_, fun ws _ => ?_, Pipe.fill_bounded⟩
  · exact (Client.ledger_run cc initialWindow r ws ht).booked
  · exact (Consumer.ledger_run cc ws).booked

/-- The Interest `1` is never answered; `0` is at once, and `2` after it was sent again. -/
def unanswered : List Wakeup :=
  [.packet (digitAnswer 0x30) (.instant 1000), .timeout (.instant 201000),
    .timeout (.instant 401000), .packet (digitAnswer 0x32) (.instant 402000),
    .timeout (.instant 601000), .timeout (.instant 801000)]

/-- The state after it, from a window of two that each packet refills. -/
def afterUnanswered : Client Nat Nat :=
  (client twoSeconds).run (Client.start twoSeconds 2 2 (.instant 0)).1 unanswered

/-- In the end `1` was sent again three times and given up, `2` was sent again twice and answered,
and `3`, sent again once, is outstanding. -/
theorem windows_keep_books_unanswered :
    (afterUnanswered.retxCount, afterUnanswered.timedOut, afterUnanswered.pipe.received) =
        (6, 1, 2) ∧
      afterUnanswered.pipe.timestamps.pairs = [(3, 801000, 1)] ∧
      afterUnanswered.pipe.Booked
        (timesSent twoSeconds ((Client.start twoSeconds 2 2 (.instant 0)).2 ++
          (client twoSeconds).sent (Client.start twoSeconds 2 2 (.instant 0)).1 unanswered))
        fun seq => timesSent twoSeconds (Client.start twoSeconds 2 2 (.instant 0)).2 seq +
          firstSent twoSeconds (client twoSeconds) Client.pipe
            (Client.start twoSeconds 2 2 (.instant 0)).1 unanswered seq :=
  ⟨by decide, by decide, (windows_keep_books twoSeconds 2).1 2 (.instant 0) unanswered (by decide)⟩

end NdnFwd.Iperf
