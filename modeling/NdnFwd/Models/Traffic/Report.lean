import NdnFwd.Core.Quantile
import NdnFwd.Models.Traffic.Consumer

/-!
# The report of the traffic generator

The flows of a run are consumers side by side. Their results are collected in the order in which
they end, and `print_stats` adds them up. The report does not tell that order, and accounts for
every Interest of the run, no two of which have the same name.
-/

namespace NdnFwd.Traffic

/-- The options of the command that decide what is sent. -/
structure Cli where
  namePrefix : Name
  count : Nat
  concurrency : Nat
  deriving DecidableEq, Repr

/-- `cli.concurrency.max(1)`. -/
def Cli.flowCount (cli : Cli) : Nat := max cli.concurrency 1

/-- The flows that `main` spawns. -/
def Cli.flows (cli : Cli) : List Flow :=
  (List.range cli.flowCount).map fun i => ⟨cli.namePrefix, i, cli.count / cli.flowCount⟩

/-- What `print_stats` prints, but for the rates that it computes in floating point. -/
structure Report where
  sent : Nat
  received : Nat
  lost : Nat
  latency : Option Quantile.Digest
  deriving DecidableEq, Repr

/-- The ranks of `p50`, `p95` and `p99`. -/
def percentiles (n : Nat) : List Nat := [n / 2, n * 95 / 100, n * 99 / 100]

/-- `print_stats`. Sums are taken in 64 bits. -/
def printStats (results : List FlowResult) : Report :=
  let sent := (results.map FlowResult.sent).sum % 2 ^ 64
  let received := (results.map FlowResult.received).sum % 2 ^ 64
  let rtts := results.flatMap FlowResult.rtts
  { sent, received
    lost := sent - received
    latency := Quantile.digest percentiles rtts }

section Flow

variable {flow : Flow} {s : State}

/-- What a consumer has counted: a reply for some Interest sent, and a time for each reply. -/
structure Counted (flow : Flow) (s : State) : Prop where
  rtts : s.result.rtts.length = s.result.received
  received : s.result.received + (if s.phase = .awaiting then 1 else 0) ≤ s.result.sent
  sent : s.result.sent ≤ flow.count

private theorem counted_start (flow : Flow) : Counted flow flow.start where
  rtts := rfl
  received := by
    have hphase : flow.start.phase ≠ .awaiting := phaseAt_ne_awaiting 0
    rw [if_neg hphase]
    rfl
  sent := Nat.zero_le _

/-- The flow goes on to its next Interest. -/
theorem Counted.next (h : Counted flow s) (hphase : s.phase = .awaiting) {t : State}
    (hrtts : t.result.rtts.length = t.result.received)
    (hreceived : t.result.received ≤ s.result.received + 1)
    (hsent : t.result.sent = s.result.sent) : Counted flow (flow.next t) where
  rtts := hrtts
  received := by
    have hs := h.received
    rw [if_pos hphase] at hs
    rw [next_phase, if_neg (phaseAt_ne_awaiting _), next_result, hsent]
    omega
  sent := by
    rw [next_result, hsent]
    exact h.sent

/-- A step of the flow. -/
theorem counted_step (hinv : Inv flow s) (h : Counted flow s) (e : Event) :
    Counted flow ((consumer flow).step s e).1 := by
  have hmove := move_step flow s e
  generalize ((consumer flow).step s e).1 = t at hmove ⊢
  cases hmove with
  | stay => exact h
  | sent now hphase =>
    have hreceived := h.received
    have hbound := hinv.bound (by simp [hphase])
    have hseq := hinv.sending hphase
    rw [if_neg (by simp [hphase])] at hreceived
    refine ⟨h.rtts, ?_, ?_⟩
    · simpa [Flow.sent] using hreceived
    · simp only [Flow.sent]
      omega
  | broke =>
    have hreceived := h.received
    refine ⟨h.rtts, ?_, h.sent⟩
    simp only [reduceCtorEq, if_false]
    omega
  | @took now p rest hphase hchannel =>
    refine h.next hphase ?_ ?_ (record_sent ..)
    · cases p with
      | data n => simpa [State.take, FlowResult.record, isLpPacket] using h.rtts
      | nack n => exact h.rtts
    · cases p with
      | data n => exact Nat.le_refl _
      | nack n => exact Nat.le_succ _
  | gaveUp hphase => exact h.next hphase h.rtts (Nat.le_succ _) rfl
  | delivered => exact ⟨h.rtts, h.received, h.sent⟩

private theorem counted_run (flow : Flow) (es : List Event) :
    Counted flow ((consumer flow).run flow.start es) := by
  induction es using List.reverseRecOn with
  | nil => exact counted_start flow
  | append_singleton es e ih =>
    rw [Machine.run_snoc]
    exact counted_step (inv_run flow es) ih e

/-- The Interests of a flow are those of the consecutive numbers. -/
theorem sent_run (flow : Flow) (es : List Event) :
    (consumer flow).sent flow.start es =
      (List.range ((consumer flow).run flow.start es).result.sent).map flow.name := by
  induction es using List.reverseRecOn with
  | nil => rfl
  | append_singleton es e ih =>
    have hinv := inv_run flow es
    rw [Machine.sent_snoc, Machine.run_snoc, ih]
    generalize (consumer flow).run flow.start es = s at hinv ⊢
    cases e with
    | send now ok =>
      by_cases hphase : s.phase = .sending
      · cases ok with
        | true =>
          simp only [consumer, hphase, if_true, Flow.sent, List.range_succ, List.map_append,
            List.map_singleton, hinv.sending hphase]
        | false => simp [consumer, hphase]
      · simp [consumer, hphase]
    | receive now =>
      simp only [consumer]
      split
      · simp [Flow.next, State.take]
      · simp
    | noReply =>
      simp only [consumer]
      split <;> simp [Flow.next]
    | deliver p =>
      simp only [consumer]
      split <;> simp [State.deliver]

/-- A flow whose sends succeed sends all its Interests before it ends. -/
theorem sent_of_returned (flow : Flow) {es : List Event} (hes : ∀ now, .send now false ∉ es)
    (h : ((consumer flow).run flow.start es).phase = .returned) :
    ((consumer flow).run flow.start es).result.sent = flow.count := by
  suffices hall : ∀ es : List Event, (∀ now, .send now false ∉ es) →
      ((consumer flow).run flow.start es).phase = .returned →
        ((consumer flow).run flow.start es).result.sent = flow.count from hall es hes h
  intro es hes
  induction es using List.reverseRecOn with
  | nil =>
    intro h
    have hzero : ¬0 < flow.count := fun hlt => by
      simp [Flow.start, phaseAt_of_lt hlt] at h
    simpa [Flow.start] using (Nat.eq_zero_of_not_pos hzero).symm
  | append_singleton es e ih =>
    have hprev := ih fun now hmem => hes now (List.mem_append_left _ hmem)
    have hlast : ∀ now, e ≠ .send now false := by
      rintro now rfl
      exact hes now (List.mem_append_right _ (List.mem_singleton_self _))
    have hinv := inv_run flow es
    have hcount := counted_run flow (es ++ [e])
    rw [Machine.run_snoc] at hcount ⊢
    generalize (consumer flow).run flow.start es = s at hinv hprev hcount ⊢
    have hmove := move_step flow s e
    generalize ((consumer flow).step s e).1 = t at hmove hcount ⊢
    have hover : ∀ seq, flow.phaseAt seq = .returned → flow.count ≤ seq := by
      intro seq hseq
      by_contra hlt
      rw [phaseAt_of_lt (Nat.lt_of_not_le hlt)] at hseq
      cases hseq
    intro h
    cases hmove with
    | stay => exact hprev h
    | sent now hphase => cases h
    | broke now => exact absurd rfl (hlast now)
    | @took now p rest hphase hchannel =>
      have hsent := hcount.sent
      have hseq := hover _ h
      have hawaiting := hinv.awaiting hphase
      simp only [next_result, State.take, record_sent] at hsent ⊢
      simp only [take_seq] at hseq
      omega
    | gaveUp hphase =>
      have hsent := hcount.sent
      have hseq := hover _ h
      have hawaiting := hinv.awaiting hphase
      simp only [next_result] at hsent ⊢
      omega
    | delivered => exact hprev h

end Flow

section Run

/-- A flow of a run and what happens in it. -/
abbrev FlowRun := Flow × List Event

/-- Where a flow stands. -/
def FlowRun.state (r : FlowRun) : State := (consumer r.1).run r.1.start r.2

/-- The Interests that it has sent. -/
def FlowRun.interests (r : FlowRun) : List Name := (consumer r.1).sent r.1.start r.2

/-- The flows of the command, side by side. -/
def Cli.runs (cli : Cli) (events : List (List Event)) : List FlowRun := cli.flows.zip events

/-- What the report of a run states, in the words of the run. -/
structure Report.Tells (cli : Cli) (runs : List FlowRun) (r : Report) : Prop where
  /-- It counts the Interests sent. -/
  sent : r.sent = (runs.flatMap FlowRun.interests).length
  sent_le : r.sent ≤ cli.count
  /-- What does not divide among the flows is never sent. -/
  complete : (∀ run ∈ runs, ∀ now, .send now false ∉ run.2) →
    r.sent = cli.count / cli.flowCount * cli.flowCount
  lost : r.received + r.lost = r.sent
  latency_none : r.latency = none ↔ r.received = 0
  sorted : ∀ d, r.latency = some d → (d.min :: d.ranked ++ [d.max]).Pairwise (· ≤ ·)
  mean : ∀ d, r.latency = some d →
    ((runs.flatMap fun run => run.state.result.rtts).sum < 2 ^ 64) →
      d.min ≤ d.avg ∧ d.avg ≤ d.max

variable {cli : Cli} {events : List (List Event)}

@[simp] theorem length_flows (cli : Cli) : cli.flows.length = cli.flowCount := by
  rw [Cli.flows, List.length_map, List.length_range]

private theorem count_of_mem_runs {run : FlowRun} (h : run ∈ cli.runs events) :
    run.1.count = cli.count / cli.flowCount := by
  obtain ⟨i, -, hi⟩ := List.mem_map.mp (List.of_mem_zip h).1
  rw [← hi]

private theorem length_runs (hlen : events.length = cli.flowCount) :
    (cli.runs events).length = cli.flowCount := by
  rw [Cli.runs, List.length_zip, length_flows, hlen, Nat.min_self]

/-- A flow is known by its number. -/
theorem map_flowId_runs (hlen : events.length = cli.flowCount) :
    (cli.runs events).map (fun run => run.1.flowId) = List.range cli.flowCount := by
  have hfst : (cli.runs events).map Prod.fst = cli.flows := by
    rw [Cli.runs, List.map_fst_zip]
    rw [length_flows, hlen]
  calc (cli.runs events).map (fun run => run.1.flowId)
      = ((cli.runs events).map Prod.fst).map Flow.flowId := by rw [List.map_map]; rfl
    _ = (List.range cli.flowCount).map id := by
        rw [hfst, Cli.flows, List.map_map]
        rfl
    _ = List.range cli.flowCount := List.map_id _

private theorem buildName_flow_injective {namePrefix : Name} {i j k l : Nat}
    (h : buildName namePrefix i k = buildName namePrefix j l) : i = j := by
  have hlast := List.append_cancel_left h
  simp only [NameComponent.generic, List.cons.injEq, NameComponent.mk.injEq, true_and,
    and_true] at hlast
  exact Digits.decimal_injective (List.append_cancel_left hlast.1)

private theorem mem_interests {run : FlowRun} {n : Name} (h : n ∈ run.interests) :
    ∃ k, n = run.1.name k := by
  rw [FlowRun.interests, sent_run] at h
  obtain ⟨k, -, rfl⟩ := List.mem_map.mp h
  exact ⟨k, rfl⟩

/-- Two flows of a run never ask for the same name, nor does one of them ask twice. -/
theorem nodup_interests (hlen : events.length = cli.flowCount) :
    ((cli.runs events).flatMap FlowRun.interests).Nodup := by
  rw [List.nodup_flatMap]
  constructor
  · intro run _
    rw [FlowRun.interests, sent_run]
    exact List.nodup_range.map (name_injective run.1)
  · have hids : ((cli.runs events).map fun run => run.1.flowId).Nodup := by
      rw [map_flowId_runs hlen]
      exact List.nodup_range
    refine (List.pairwise_map.mp hids).imp_of_mem ?_
    intro run other hrun hother hne n hn hn'
    obtain ⟨k, rfl⟩ := mem_interests hn
    obtain ⟨l, hl⟩ := mem_interests hn'
    have hnames : run.1.namePrefix = other.1.namePrefix := by
      obtain ⟨i, -, hi⟩ := List.mem_map.mp (List.of_mem_zip hrun).1
      obtain ⟨j, -, hj⟩ := List.mem_map.mp (List.of_mem_zip hother).1
      rw [← hi, ← hj]
    rw [Flow.name, Flow.name, hnames] at hl
    exact hne (buildName_flow_injective hl)

/-- The order in which the flows are joined makes no difference. -/
theorem printStats_perm {results more : List FlowResult} (h : results.Perm more) :
    printStats results = printStats more := by
  have hrtts := h.flatMap_right FlowResult.rtts
  have hsent := (h.map FlowResult.sent).sum_eq
  have hreceived := (h.map FlowResult.received).sum_eq
  simp only [printStats, hsent, hreceived, Quantile.digest_perm hrtts]

/-- The percentiles are places in the list. -/
theorem percentiles_lt {n : Nat} (h : 0 < n) : ∀ i ∈ percentiles n, i < n := by
  simp only [percentiles, List.mem_cons, List.not_mem_nil, or_false, forall_eq_or_imp, forall_eq]
  omega

private theorem pairwise_percentiles (n : Nat) : (percentiles n).Pairwise (· ≤ ·) := by
  simp only [percentiles, List.pairwise_cons, List.mem_cons, List.not_mem_nil, or_false,
    forall_eq_or_imp, forall_eq, IsEmpty.forall_iff, implies_true, List.Pairwise.nil, and_true]
  omega

/-- The latency figures are those of the samples. -/
theorem digests_of_latency {rtts : List Nat} {d : Quantile.Digest}
    (h : Quantile.digest percentiles rtts = some d) : Quantile.Digests percentiles rtts d := by
  have hpos : 0 < rtts.length := by
    apply List.length_pos_of_ne_nil
    rintro rfl
    rw [Quantile.digest_eq_none_iff.mpr rfl] at h
    cases h
  exact Quantile.digests_of_digest (percentiles_lt hpos) h

/-- The totals of a run. -/
structure Totals (cli : Cli) (runs : List FlowRun) : Prop where
  sent : (runs.map fun run => run.state.result.sent).sum =
    (runs.flatMap FlowRun.interests).length
  sent_le : (runs.map fun run => run.state.result.sent).sum ≤ cli.count
  received_le : (runs.map fun run => run.state.result.received).sum ≤
    (runs.map fun run => run.state.result.sent).sum
  rtts : (runs.flatMap fun run => run.state.result.rtts).length =
    (runs.map fun run => run.state.result.received).sum

private theorem totals_runs (hlen : events.length = cli.flowCount) :
    Totals cli (cli.runs events) where
  sent := by
    rw [List.length_flatMap]
    congr 1
    apply List.map_congr_left
    intro run _
    rw [FlowRun.interests, sent_run, List.length_map, List.length_range]
    rfl
  sent_le := by
    have hle : ∀ n ∈ (cli.runs events).map (fun run => run.state.result.sent),
        n ≤ cli.count / cli.flowCount := by
      intro n hn
      obtain ⟨run, hrun, rfl⟩ := List.mem_map.mp hn
      rw [← count_of_mem_runs hrun]
      exact (counted_run run.1 run.2).sent
    have hsum := List.sum_le_card_nsmul _ _ hle
    rw [List.length_map, length_runs hlen, nsmul_eq_mul, Nat.cast_id] at hsum
    exact hsum.trans (Nat.mul_div_le _ _)
  received_le := by
    apply List.sum_le_sum
    intro run _
    have hcounted := (counted_run run.1 run.2).received
    exact (Nat.le_add_right _ _).trans hcounted
  rtts := by
    rw [List.length_flatMap]
    congr 1
    apply List.map_congr_left
    intro run _
    exact (counted_run run.1 run.2).rtts

/-- What is sent when no send fails. -/
theorem sum_sent_of_returned (hlen : events.length = cli.flowCount)
    (hdone : ∀ run ∈ cli.runs events, run.state.phase = .returned)
    (hes : ∀ run ∈ cli.runs events, ∀ now, .send now false ∉ run.2) :
    ((cli.runs events).map fun run => run.state.result.sent).sum =
      cli.count / cli.flowCount * cli.flowCount := by
  have heach : (cli.runs events).map (fun run => run.state.result.sent) =
      (cli.runs events).map fun _ => cli.count / cli.flowCount := by
    apply List.map_congr_left
    intro run hrun
    rw [← count_of_mem_runs hrun]
    exact sent_of_returned run.1 (hes run hrun) (hdone run hrun)
  rw [heach, List.map_const', List.sum_replicate, nsmul_eq_mul, Nat.cast_id, length_runs hlen,
    Nat.mul_comm]

/-- In whatever order the flows end, the report tells of the whole run: of every Interest sent,
no two of them for the same name, of those without a reply, and of the times of the others. -/
theorem report_tells (hcount : cli.count < 2 ^ 64) (hlen : events.length = cli.flowCount)
    (hdone : ∀ run ∈ cli.runs events, run.state.phase = .returned) {results : List FlowResult}
    (hjoined : results.Perm ((cli.runs events).map fun run => run.state.result)) :
    (printStats results).Tells cli (cli.runs events) ∧
      ((cli.runs events).flatMap FlowRun.interests).Nodup := by
  refine ⟨?_, nodup_interests hlen⟩
  have ht : Totals cli (cli.runs events) := totals_runs hlen
  have hcomplete := sum_sent_of_returned hlen hdone
  rw [printStats_perm hjoined]
  generalize cli.runs events = runs at ht hcomplete ⊢
  have hsent : (printStats (runs.map fun run => run.state.result)).sent =
      (runs.map fun run => run.state.result.sent).sum := by
    simp only [printStats, List.map_map, Function.comp_def]
    exact Nat.mod_eq_of_lt (Nat.lt_of_le_of_lt ht.sent_le hcount)
  have hreceived : (printStats (runs.map fun run => run.state.result)).received =
      (runs.map fun run => run.state.result.received).sum := by
    simp only [printStats, List.map_map, Function.comp_def]
    exact Nat.mod_eq_of_lt (Nat.lt_of_le_of_lt (ht.received_le.trans ht.sent_le) hcount)
  have hlost : (printStats (runs.map fun run => run.state.result)).lost =
      (printStats (runs.map fun run => run.state.result)).sent -
        (printStats (runs.map fun run => run.state.result)).received := rfl
  have hlatency : (printStats (runs.map fun run => run.state.result)).latency =
      Quantile.digest percentiles (runs.flatMap fun run => run.state.result.rtts) := by
    rw [printStats, List.flatMap_map]
  refine ⟨hsent.trans ht.sent, hsent ▸ ht.sent_le, ?_, ?_, ?_, ?_, ?_⟩
  · intro hes
    rw [hsent]
    exact hcomplete hes
  · rw [hlost, hsent, hreceived]
    exact Nat.add_sub_of_le ht.received_le
  · rw [hlatency, Quantile.digest_eq_none_iff, hreceived, ← ht.rtts,
      List.length_eq_zero_iff]
  · intro d hd
    rw [hlatency] at hd
    exact (digests_of_latency hd).sorted (pairwise_percentiles _)
  · intro d hd hsum
    rw [hlatency] at hd
    exact (digests_of_latency hd).mean_mem hsum

/-- Two flows share five Interests: one is not sent, and one is not answered. -/
def fiveInterests : Cli := ⟨[], 5, 2⟩

/-- What happens in them. -/
def fiveEvents : List (List Event) :=
  [[.send 0 true, .deliver (.data (buildName [] 0 0)), .receive 40, .send 50 true, .noReply],
    [.send 0 true, .deliver (.data (buildName [] 1 0)), .receive 20, .send 30 true,
      .deliver (.data (buildName [] 1 1)), .receive 60]]

/-- Five Interests over two flows. -/
theorem fiveInterests_tells :
    (printStats ((fiveInterests.runs fiveEvents).map fun run => run.state.result).reverse).Tells
        fiveInterests (fiveInterests.runs fiveEvents) ∧
      ((fiveInterests.runs fiveEvents).flatMap FlowRun.interests).Nodup := by
  apply report_tells (by decide) rfl ?_ (List.reverse_perm _)
  have hflows : fiveInterests.flows = [⟨[], 0, 2⟩, ⟨[], 1, 2⟩] := rfl
  simp [Cli.runs, hflows, fiveEvents, FlowRun.state, consumer, Flow.start, Flow.phaseAt, Flow.sent,
    Flow.name, Flow.next, State.deliver, State.take, Packet.name]

end Run

end NdnFwd.Traffic
