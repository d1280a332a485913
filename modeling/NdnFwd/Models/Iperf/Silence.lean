import NdnFwd.Models.Iperf.Client

/-!
# When the client falls silent

Fresh Interests leave only in answer to a packet. A timeout that gives up everything
outstanding therefore ends the test: no packet can come any more. Nothing else empties
the table before the deadline.
-/

namespace NdnFwd.Iperf

variable {κ ρ : Type*} {u : Setup κ ρ}

/-- The states a congestion controller may come to. -/
inductive Congestion.Reaches (c : Congestion κ) (cc : κ) : κ → Prop
  | initial : Reaches c cc cc
  | onData {k : κ} : Reaches c cc k → Reaches c cc (c.onData k)
  | onTimeout {k : κ} : Reaches c cc k → Reaches c cc (c.onTimeout k)

/-- The loop is at its head, the connection is open, and the deadline has not been seen to pass. -/
def Client.Testing (s : Client κ ρ) : Prop := s.outcome = .running ∧ s.pipe.pastDeadline = false

instance (s : Client κ ρ) : Decidable s.Testing := inferInstanceAs (Decidable (_ ∧ _))

/-- A timeout before the deadline finds an Interest that is not both stale and out of retries. -/
def Client.KeepsOne (u : Setup κ ρ) (s : Client κ ρ) : Wakeup → Prop
  | .timeout r => s.Testing → r.check < u.deadline →
      ∃ e ∈ s.pipe.timestamps.pairs, s.pipe.isLost u r.now e = false
  | _ => True

instance (s : Client κ ρ) : (w : Wakeup) → Decidable (s.KeepsOne u w)
  | .timeout _ => inferInstanceAs (Decidable (_ → _ → _))
  | .packet _ _ => isTrue trivial
  | .closed => isTrue trivial

section Controller

/-- Sending again changes only the table. -/
theorem Pipe.sendAgain_eq (r : Readings) (again : List (Nat × Nat)) (i : Nat) (s : Pipe κ ρ) :
    (s.sendAgain u r again i).pipe =
      { s with timestamps := (s.sendAgain u r again i).pipe.timestamps } := by
  induction again generalizing i s with
  | nil => rfl
  | cons x again ih =>
    rw [Pipe.sendAgain]
    split_ifs
    · exact ih (i + 1) (s.reissue x.1 x.2 (r.stamp i))
    · rfl

@[simp] theorem Pipe.cc_accept (s : Pipe κ ρ) (raw : Bytes) (elapsed : Nat) :
    (s.accept u raw elapsed).cc = u.congestion.onData s.cc := by
  simp only [Pipe.accept]
  split <;> rfl

private theorem Pipe.reaches_resend {cc : κ} {s : Pipe κ ρ} (h : u.congestion.Reaches cc s.cc)
    (r : Readings) (again : List (Nat × Nat)) :
    u.congestion.Reaches cc (s.resend u r again).pipe.cc := by
  rw [Pipe.resend]
  split_ifs
  · exact h
  · rw [sendAgain_eq]
    exact h.onTimeout

end Controller

section Steps

/-- A packet that leaves the test going has refilled the window. -/
theorem Client.testing_onPacket {s : Client κ ρ} {raw : Bytes} {r : Readings}
    (h : (s.onPacket u raw r).1.Testing) :
    s.pipe.pastDeadline = false ∧
      s.pipe.onPacket u raw r = (s.pipe.accept u raw r.elapsed).fill u r 0 ∧
        ((s.pipe.accept u raw r.elapsed).fill u r 0).ok = true := by
  have hnot : (s.pipe.onPacket u raw r).pipe.pastDeadline = false := h.2
  have hout : (s.onPacket u raw r).1.outcome = .running := h.1
  cases hp : s.pipe.pastDeadline with
  | true =>
    simp only [Pipe.onPacket, Pipe.accept_pastDeadline, hp, if_true, Bool.true_eq_false] at hnot
  | false =>
    by_cases hd : r.check < u.deadline
    · have hfill : s.pipe.onPacket u raw r = (s.pipe.accept u raw r.elapsed).fill u r 0 := by
        simp only [Pipe.onPacket, Pipe.accept_pastDeadline, hp, Bool.false_eq_true, if_false,
          if_pos hd]
      refine ⟨rfl, hfill, ?_⟩
      simp only [Client.onPacket, Pipe.isDrained, hnot, Bool.false_and, Bool.false_eq_true,
        if_false, Sends.outcome] at hout
      rw [← hfill]
      by_contra hok
      rw [if_neg hok] at hout
      exact Outcome.noConfusion hout
    · simp only [Pipe.onPacket, Pipe.accept_pastDeadline, hp, Bool.false_eq_true, if_false,
        if_neg hd, Bool.true_eq_false] at hnot

/-- A timeout that leaves the test going has retried. -/
theorem Client.testing_onTimeout {s : Client κ ρ} {r : Readings}
    (h : (s.onTimeout u r).1.Testing) :
    s.pipe.pastDeadline = false ∧ r.check < u.deadline ∧ s.onTimeout u r = s.retry u r := by
  have hnot := h.2
  cases hp : s.pipe.pastDeadline with
  | true =>
    rw [Client.onTimeout, if_pos hp] at hnot
    exact absurd (hp.symm.trans hnot) Bool.noConfusion
  | false =>
    have hpast : ¬s.pipe.pastDeadline = true := by rw [hp]; exact Bool.false_ne_true
    by_cases hd : u.deadline ≤ r.check
    · rw [Client.onTimeout, if_neg hpast, if_pos hd] at hnot
      exact Bool.noConfusion hnot
    · exact ⟨rfl, Nat.lt_of_not_le hd, by rw [Client.onTimeout, if_neg hpast, if_neg hd]⟩

/-- After a step the test goes on only if it went on before, and a packet has refilled the
window or a timeout has retried. -/
theorem testing_step {s : Client κ ρ} {w : Wakeup} (h : ((client u).step s w).1.Testing) :
    s.Testing ∧
      ((∃ raw r, ((client u).step s w).1.pipe = ((s.pipe.accept u raw r.elapsed).fill u r 0).pipe ∧
          ((client u).step s w).2 = ((s.pipe.accept u raw r.elapsed).fill u r 0).interests ∧
            ((s.pipe.accept u raw r.elapsed).fill u r 0).ok = true) ∨
        ∃ r, w = .timeout r ∧ r.check < u.deadline ∧
          (client u).step s w = s.retry u r) := by
  cases ho : s.outcome with
  | running =>
    cases w with
    | packet raw r =>
      simp only [client, ho] at h ⊢
      obtain ⟨hp, hfill, hok⟩ := Client.testing_onPacket h
      exact ⟨⟨ho, hp⟩,
        Or.inl ⟨raw, r, congrArg Sends.pipe hfill, congrArg Sends.interests hfill, hok⟩⟩
    | closed =>
      simp only [client, ho] at h
      exact Outcome.noConfusion h.1
    | timeout r =>
      simp only [client, ho] at h ⊢
      obtain ⟨hp, hd, he⟩ := Client.testing_onTimeout h
      exact ⟨⟨ho, hp⟩, Or.inr ⟨r, rfl, hd, he⟩⟩
  | _ =>
    simp only [client, ho] at h
    exact Outcome.noConfusion (ho.symm.trans h.1)

/-- Sending again books nothing new. -/
theorem Pipe.size_resend {s : Pipe κ ρ} (h : s.Counted) (r : Readings) {again : List (Nat × Nat)}
    (hin : ∀ x ∈ again, x.1 ∈ s.timestamps) :
    (s.resend u r again).pipe.timestamps.size = s.timestamps.size := by
  have hsame : (s.resend u r again).pipe.inFlight = s.inFlight := by
    rw [Pipe.resend]
    split_ifs
    · rfl
    · rw [sendAgain_eq]
      rfl
  rw [← (h.resend r hin).counted, hsame, h.counted]

/-- Where everything outstanding is lost, nothing is sent again. -/
theorem Pipe.toResend_of_lost {s : Pipe κ ρ} {r : Readings}
    (h : ∀ e ∈ s.timestamps.pairs, s.isLost u r.now e = true) : s.toResend u r = [] := by
  rw [Pipe.toResend, List.map_eq_nil_iff, List.filter_eq_nil_iff]
  intro e he
  have hlost := h e ((r.order.perm s.timestamps.pairs).mem_iff.mp he)
  simp only [Pipe.isLost, Bool.and_eq_true] at hlost
  simp only [hlost, Bool.not_true, Bool.and_false, Bool.false_eq_true, not_false_eq_true]

private theorem Client.counted_retry {s : Client κ ρ} (h : s.pipe.Counted) (r : Readings) :
    (s.retry u r).1.pipe.Counted :=
  (h.giveUp r).resend r fun _ hx => Pipe.mem_of_mem_toResend (List.mem_of_mem_take hx)

/-- A retry leaves something outstanding unless everything was lost. -/
theorem Client.size_retry {s : Client κ ρ} (h : s.pipe.Counted) (r : Readings) :
    (s.retry u r).1.pipe.timestamps.size = 0 ↔
      ∀ e ∈ s.pipe.timestamps.pairs, s.pipe.isLost u r.now e = true := by
  rw [← Pipe.giveUp_empty_iff, Client.retry]
  rw [← Pipe.size_resend (h.giveUp r) r fun _ hx =>
    Pipe.mem_of_mem_toResend (List.mem_of_mem_take hx)]

/-- A retry that gives up everything succeeds, for it sends nothing. -/
theorem Client.testing_retry {s : Client κ ρ} {r : Readings} (h : s.Testing)
    (hlost : ∀ e ∈ s.pipe.timestamps.pairs, s.pipe.isLost u r.now e = true) :
    (s.retry u r).1.Testing := by
  rw [Client.retry, Pipe.toResend_of_lost hlost, List.take_nil]
  exact ⟨rfl, h.2⟩

end Steps

section Runs

/-- Before the deadline the loop counts correctly and its controller is in a state it can reach. -/
structure Client.Sound (u : Setup κ ρ) (cc : κ) (s : Client κ ρ) : Prop where
  /-- The count is the size of the table. -/
  counted : s.pipe.Counted
  /-- The controller has only been driven by the loop. -/
  reaches : u.congestion.Reaches cc s.pipe.cc

/-- A step that leaves the test going. -/
theorem sound_step {cc : κ} {s : Client κ ρ} {w : Wakeup} (h : s.Testing → s.Sound u cc)
    (ht : ((client u).step s w).1.Testing) : ((client u).step s w).1.Sound u cc := by
  obtain ⟨hs, ⟨raw, r, hp, -, -⟩ | ⟨r, -, -, hp⟩⟩ := testing_step ht
  · obtain ⟨hcounted, hreaches⟩ := h hs
    refine ⟨?_, ?_⟩
    · rw [hp]
      exact (hcounted.accept raw r.elapsed).sendFresh r _ 0
    · rw [hp, Pipe.fill, Pipe.cc_sendFresh, Pipe.cc_accept]
      exact hreaches.onData
  · obtain ⟨hcounted, hreaches⟩ := h hs
    refine ⟨?_, ?_⟩
    · rw [hp]
      exact Client.counted_retry hcounted r
    · rw [hp]
      exact Pipe.reaches_resend (s := s.pipe.giveUp _) hreaches r _

/-- What it takes for a wakeup to keep nothing. -/
theorem Client.not_keepsOne {s : Client κ ρ} {w : Wakeup} (h : ¬s.KeepsOne u w) :
    s.Testing ∧ ∃ r, w = .timeout r ∧ r.check < u.deadline ∧
      ∀ e ∈ s.pipe.timestamps.pairs, s.pipe.isLost u r.now e = true := by
  cases w with
  | packet raw r => exact absurd trivial h
  | closed => exact absurd trivial h
  | timeout r =>
    simp only [Client.KeepsOne] at h
    push Not at h
    obtain ⟨ht, hd, hall⟩ := h
    exact ⟨ht, r, rfl, hd, fun e he => Bool.eq_true_of_not_eq_false (hall e he)⟩

/-- A timeout that finds everything lost leaves the test going with nothing outstanding. -/
theorem silent_step {cc : κ} {s : Client κ ρ} {w : Wakeup} (h : s.Sound u cc)
    (hlost : ¬s.KeepsOne u w) :
    ((client u).step s w).1.Testing ∧ ((client u).step s w).1.pipe.timestamps.size = 0 := by
  obtain ⟨ht, r, rfl, hd, hgone⟩ := Client.not_keepsOne hlost
  have hstep : (client u).step s (.timeout r) = s.retry u r := by
    simp only [client, ht.1, Client.onTimeout, ht.2, Bool.false_eq_true, if_false,
      if_neg (Nat.not_le.mpr hd)]
  rw [hstep]
  exact ⟨Client.testing_retry ht hgone, (Client.size_retry h.counted r).mpr hgone⟩

/-- The first window is sent. -/
theorem sound_start (cc : κ) (initialWindow : Nat) (r : Readings) :
    (Client.start u cc initialWindow r).1.Sound u cc where
  counted := (Pipe.counted_empty cc).sendFresh r _ 0
  reaches := by
    rw [Client.start, Pipe.cc_sendFresh]
    exact Congestion.Reaches.initial

/-- So it is as long as the test goes on. -/
theorem sound_run {cc : κ} {s : Client κ ρ} (h : s.Sound u cc) (ws : List Wakeup)
    (ht : ((client u).run s ws).Testing) : ((client u).run s ws).Sound u cc := by
  refine (client u).run_invariant (I := fun s => s.Testing → s.Sound u cc) (P := fun _ => True)
    (fun s w hs _ => sound_step hs) (fun _ => h) (fun _ _ => trivial) ht

/-- One step keeps an Interest outstanding unless a timeout finds everything lost. -/
theorem size_step {cc : κ} {s : Client κ ρ} {w : Wakeup}
    (hw : ∀ k, u.congestion.Reaches cc k → 1 ≤ u.congestion.floorWindow k)
    (h : s.Sound u cc) (hkeep : s.KeepsOne u w) (ht : ((client u).step s w).1.Testing) :
    0 < ((client u).step s w).1.pipe.timestamps.size := by
  obtain ⟨hs, ⟨raw, r, hp, -, hok⟩ | ⟨r, rfl, hd, hp⟩⟩ := testing_step ht
  · have hcounted : ((s.pipe.accept u raw r.elapsed).fill u r 0).pipe.Counted :=
      (h.counted.accept raw r.elapsed).sendFresh r _ 0
    have hwindow := Pipe.le_inFlight_fill hok
    rw [hp, ← hcounted.counted]
    refine (hw _ ?_).trans hwindow
    rw [Pipe.cc_accept]
    exact h.reaches.onData
  · obtain ⟨e, he, hnot⟩ := hkeep hs hd
    rw [hp]
    refine Nat.pos_of_ne_zero fun hzero => ?_
    have hlost := (Client.size_retry h.counted r).mp hzero e he
    exact Bool.noConfusion (hnot.symm.trans hlost)

private theorem size_start {cc : κ} {initialWindow : Nat} (hw : 1 ≤ u.congestion.floorWindow cc)
    (hi : 1 ≤ initialWindow) (r : Readings)
    (ht : (Client.start u cc initialWindow r).1.Testing) :
    0 < (Client.start u cc initialWindow r).1.pipe.timestamps.size := by
  have hout := ht.1
  rw [← (sound_start cc initialWindow r).counted.counted]
  simp only [Client.start, Sends.outcome] at hout ⊢
  split_ifs at hout with hok
  rw [Pipe.inFlight_sendFresh hok]
  have hmin := Nat.le_min.mpr ⟨hi, hw⟩
  omega

/-- Something is outstanding whenever the loop stands at its head before the deadline, if and
only if no timeout on the way found everything outstanding stale and out of retries. -/
theorem never_silent_iff (u : Setup κ ρ) (cc : κ) (initialWindow : Nat) (r : Readings)
    (hw : ∀ k, u.congestion.Reaches cc k → 1 ≤ u.congestion.floorWindow k)
    (hi : 1 ≤ initialWindow) (ws : List Wakeup) :
    (∀ ws', ws' <+: ws → ((client u).run (Client.start u cc initialWindow r).1 ws').Testing →
        0 < ((client u).run (Client.start u cc initialWindow r).1 ws').pipe.timestamps.size) ↔
      ∀ v ∈ (client u).visits (Client.start u cc initialWindow r).1 ws, v.1.KeepsOne u v.2 := by
  have hsound := sound_run (sound_start (u := u) cc initialWindow r)
  constructor
  · intro hpos v hv
    obtain ⟨before, hpre, hs⟩ := (client u).exists_prefix_of_mem_visits hv
    by_contra hlost
    obtain ⟨ht, hzero⟩ := silent_step
      (hs ▸ hsound before (hs ▸ (Client.not_keepsOne hlost).1)) hlost
    have hafter := hpos (before ++ [v.2]) hpre
    rw [Machine.run_snoc, ← hs] at hafter
    exact absurd hzero (Nat.ne_of_gt (hafter ht))
  · intro hkeep ws' hpre ht
    induction ws' using List.reverseRecOn with
    | nil => exact size_start (hw cc .initial) hi r ht
    | append_singleton ws' w _ =>
      rw [Machine.run_snoc] at ht ⊢
      refine size_step hw (hsound ws' (testing_step ht).1) ?_ ht
      exact hkeep _ ((client u).mem_visits_of_isPrefix hpre ((client u).mem_visits_snoc _ ws' w))

/-- A test of ten seconds in which no packet comes. -/
def outage : Setup Nat Nat where
  decode _ := none
  congestion := Congestion.fixed
  rtt := RttFilter.whole
  flowPrefix := [.generic [0x74], .generic [0x66]]
  lifetime := 4000
  deadline := 10000000

private theorem Congestion.reaches_fixed {k k' : Nat} (h : Congestion.fixed.Reaches k k') :
    k' = k := by
  induction h with
  | initial => rfl
  | onData _ ih => exact ih
  | onTimeout _ ih => exact ih

/-- One retransmission keeps the Interest outstanding. -/
theorem never_silent_one_retry :
    0 < ((client outage).run (Client.start outage 1 1 (.instant 0)).1
      [.timeout (.instant 100000), .timeout (.instant 200000)]).pipe.timestamps.size :=
  (never_silent_iff outage 1 1 (.instant 0) (fun _ hk => (Congestion.reaches_fixed hk).ge)
    le_rfl [.timeout (.instant 100000), .timeout (.instant 200000)]).mpr (by decide) _
    List.prefix_rfl (by decide)

/-- After 800 ms without an answer the only Interest is given up. The loop runs on for more than
nine seconds, and at no timeout does it send anything. -/
theorem not_outstanding_after_outage :
    let first := (Client.start outage 1 1 (.instant 0)).1
    let early := (List.range 8).map fun i => Wakeup.timeout (.instant (100000 * (i + 1)))
    let late := (List.range 91).map fun i => Wakeup.timeout (.instant (100000 * (i + 9)))
    let silent := (client outage).run first early
    (∀ k, outage.congestion.Reaches 1 k → 1 ≤ outage.congestion.floorWindow k) ∧
      silent.Testing ∧ silent.pipe.timestamps.size = 0 ∧ (client outage).sent silent late = [] := by
  refine ⟨fun k hk => (Congestion.reaches_fixed hk).ge, ?_, ?_, ?_⟩
  · decide
  · decide
  · decide

end Runs

end NdnFwd.Iperf
