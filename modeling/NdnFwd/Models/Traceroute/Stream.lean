import NdnFwd.Models.Traceroute.Client

/-!
# The stream of traceroute events

A run emits one structured event for each hop, counting up from one, and then a summary that
agrees with the last of them. Only a probe that ends in an error other than a Nack or a timeout
leaves the stream without its summary.
-/

namespace NdnFwd.Traceroute

/-- The hops count up from one. -/
def Ramp (hops : List HopData) : Prop := hops.map HopData.hop = List.range' 1 hops.length

/-- The hops from one on, then a summary: the target is as far as the last hop, if that reached
it, and else was not reached. -/
def WellFormed (data : List ToolData) : Prop :=
  ∃ hops n reached, data = hops.map .tracerouteHop ++ [.tracerouteSummary n reached] ∧
    Ramp hops ∧ ∀ h, (reached = true ∧ n = h) ↔ ∃ e ∈ hops.getLast?, e.reached = true ∧ e.hop = h

/-- The hops below this one, none of which reached the target. -/
def ClimbedTo (hop : Nat) (data : List ToolData) : Prop :=
  ∃ hops, data = hops.map .tracerouteHop ∧ Ramp hops ∧ hops.length + 1 = hop ∧
    ∀ e ∈ hops, e.reached = false

section Data

variable {hop : Nat} {data : List ToolData} {hops : List HopData} {e : HopData}

/-- The next hop follows. -/
theorem Ramp.snoc (h : Ramp hops) (he : hops.length + 1 = e.hop) : Ramp (hops ++ [e]) := by
  rw [Ramp, List.map_append, h, List.length_append, List.length_singleton, List.range'_concat,
    List.map_singleton, ← he, Nat.one_mul, Nat.add_comm]

private theorem climbedTo_one : ClimbedTo 1 [] := ⟨[], rfl, rfl, rfl, by simp⟩

/-- A hop that has not reached the producer. -/
theorem ClimbedTo.snoc (h : ClimbedTo hop data) (he : e.hop = hop) (hr : e.reached = false) :
    ClimbedTo (hop + 1) (data ++ [.tracerouteHop e]) := by
  obtain ⟨hops, rfl, hramp, hlen, hnone⟩ := h
  refine ⟨hops ++ [e], by rw [List.map_append, List.map_singleton],
    hramp.snoc (hlen.trans he.symm), by rw [List.length_append, ← hlen]; rfl, ?_⟩
  intro e' he'
  rcases List.mem_append.mp he' with hmem | hlast
  · exact hnone e' hmem
  · rw [List.mem_singleton.mp hlast, hr]

/-- A summary after hops that did not reach the target. -/
theorem ClimbedTo.notReached (h : ClimbedTo hop data) (n : Nat) :
    WellFormed (data ++ [.tracerouteSummary n false]) := by
  obtain ⟨hops, rfl, hramp, -, hnone⟩ := h
  refine ⟨hops, n, false, rfl, hramp, fun h => iff_of_false (by simp) ?_⟩
  rintro ⟨e, he, hreached, -⟩
  rw [hnone e (List.mem_of_getLast? he)] at hreached
  cases hreached

/-- A hop that reached the target, and its summary. -/
theorem ClimbedTo.reached (h : ClimbedTo hop data) (he : e.hop = hop) (hr : e.reached = true) :
    WellFormed (data ++ [.tracerouteHop e, .tracerouteSummary hop true]) := by
  obtain ⟨hops, rfl, hramp, hlen, -⟩ := h
  refine ⟨hops ++ [e], hop, true, by simp, hramp.snoc (hlen.trans he.symm), fun h => ?_⟩
  simp [hr, he]

/-- Hops alone lack the summary. -/
theorem ClimbedTo.not_wellFormed (h : ClimbedTo hop data) : ¬WellFormed data := by
  obtain ⟨hops, rfl, -⟩ := h
  rintro ⟨hops', n, reached, heq, -⟩
  have hmem : .tracerouteSummary n reached ∈ hops.map ToolData.tracerouteHop := by
    rw [heq]
    exact List.mem_append_right _ (List.mem_singleton_self _)
  obtain ⟨e, -, he⟩ := List.mem_map.mp hmem
  cases he

end Data

/-- The stream of events at a point of a run. -/
def StreamAt (data : List ToolData) : Client → Prop
  | .start => data = []
  | .probing t => ClimbedTo t.hop data
  | .finished _ => WellFormed data
  | .failed => ∃ hop, ClimbedTo hop data

section Run

variable {wire : Wire} {p : TracerouteParams} {data : List ToolData} {v : Client × Resume}
  {a : Client × List Message}

/-- The line of a hop carries its payload. -/
theorem structured_hop {wire : Wire} {p : TracerouteParams} {hop : Nat} {outcome : Outcome}
    {ms : List Message} : ∃ e, structured (.event (hopEvent wire p hop outcome) :: ms) =
      .tracerouteHop e :: structured ms ∧ e.hop = hop ∧ e.reached = outcome.isReached := by
  obtain ⟨e, he, hhop, hreached⟩ := hopEvent_structured wire p hop outcome
  exact ⟨e, by rw [structured_event, he]; rfl, hhop, hreached⟩

private theorem streamAt_move (h : StreamAt data v.1) (hmove : Move wire p v a) :
    StreamAt (data ++ structured a.2) a.1 := by
  cases hmove with
  | begin r hhop =>
    obtain rfl : data = [] := h
    exact climbedTo_one
  | skip r =>
    obtain rfl : data = [] := h
    exact climbedTo_one.notReached _
  | again outcome hout hleft hr hf =>
    change ClimbedTo _ (data ++ [])
    rwa [List.append_nil]
  | arrive outcome ho hr hf =>
    obtain ⟨e, hms, hhop, hreached⟩ := structured_hop
    rw [hms]
    exact ClimbedTo.reached h hhop (hreached.trans ho)
  | climb outcome ho hhop hr hf =>
    obtain ⟨e, hms, hhop, hreached⟩ := structured_hop
    rw [hms]
    exact ClimbedTo.snoc h hhop (hreached.trans ho)
  | stop outcome ho hr hf =>
    obtain ⟨e, hms, hhop, hreached⟩ := structured_hop
    rw [hms, List.append_cons]
    exact (ClimbedTo.snoc h hhop (hreached.trans ho)).notReached _
  | fail text hr hf =>
    change ∃ hop, ClimbedTo hop (data ++ [])
    exact ⟨_, by rwa [List.append_nil]⟩
  | rest hover =>
    change StreamAt (data ++ []) _
    rwa [List.append_nil]

/-- What is told fits where the session stands. -/
theorem streamAt_run (wire : Wire) (p : TracerouteParams) (rs : List Resume) :
    StreamAt (Traceroute.data wire p rs) ((runClient wire p).run .start rs) := by
  induction rs using List.reverseRecOn with
  | nil => exact rfl
  | append_singleton rs r ih =>
    rw [Traceroute.data, Machine.sent_snoc, structured, List.filterMap_append, Machine.run_snoc]
    exact streamAt_move (v := (_, r)) ih (move_step wire p _)

private theorem eq_failed_iff (hmove : Move wire p v a) :
    a.1 = .failed ↔ v.1 = .failed ∨ fails v = true := by
  cases hmove with
  | begin r hhop => simp [fails]
  | skip r => simp [fails]
  | again outcome hout hleft hr hf => simp [hf]
  | arrive outcome ho hr hf => simp [hf]
  | climb outcome ho hhop hr hf => simp [hf]
  | stop outcome ho hr hf => simp [hf]
  | fail text hr hf => exact iff_of_true rfl (Or.inr hf)
  | rest hover => simp [fails_of_over hover]

/-- A run returns without a summary exactly if some probe of it failed. -/
theorem run_eq_failed_iff (wire : Wire) (p : TracerouteParams) (rs : List Resume) :
    (runClient wire p).run .start rs = .failed ↔
      ∃ v ∈ (runClient wire p).visits .start rs, fails v = true := by
  have hrun := (runClient wire p).run_iff_exists (P := (· = .failed)) (Q := (fails · = true))
    (fun s r => eq_failed_iff (move_step wire p (s, r))) .start rs
  exact hrun.trans (or_iff_right Client.noConfusion)

end Run

section Length

variable {wire : Wire} {p : TracerouteParams} {s : Client} {v : Client × Resume}
  {a : Client × List Message}

/-- How many resumptions the client may still take. -/
def budget (p : TracerouteParams) : Client → Nat
  | .start => p.maxHops.toNat * p.probesMax + 1
  | .probing t => (p.maxHops.toNat - t.hop) * p.probesMax + t.left + 1
  | .finished _ | .failed => 0

/-- A hop takes up all its probes. -/
theorem budget_hop {hop : Nat} (h : hop + 1 ≤ p.maxHops.toNat) :
    (p.maxHops.toNat - (hop + 1)) * p.probesMax + (p.probesMax - 1) + 1 =
      (p.maxHops.toNat - hop) * p.probesMax := by
  have hpos : 1 ≤ p.probesMax := Nat.le_max_right _ _
  have hsucc : p.maxHops.toNat - hop = p.maxHops.toNat - (hop + 1) + 1 := by omega
  rw [hsucc, Nat.add_one_mul]
  omega

private theorem budget_of_over (h : s.Over) : budget p s = 0 := by
  cases s with
  | start => cases h
  | probing t => cases h
  | finished reachedAt => rfl
  | failed => rfl

private theorem budget_move (hmove : Move wire p v a) : budget p a.1 ≤ budget p v.1 - 1 := by
  cases hmove with
  | begin r hhop => exact (budget_hop hhop).le
  | again outcome hout hleft hr hf =>
    simp only [budget, hleft]
    omega
  | climb outcome ho hhop hr hf =>
    simp only [budget, budget_hop hhop]
    omega
  | rest hover =>
    rw [budget_of_over hover]
  | _ => exact Nat.zero_le _

private theorem budget_run (wire : Wire) (p : TracerouteParams) (s : Client) (rs : List Resume) :
    budget p ((runClient wire p).run s rs) ≤ budget p s - rs.length := by
  induction rs generalizing s with
  | nil => exact Nat.le_refl _
  | cons r rs ih =>
    have hstep : budget p (step wire p s r).1 ≤ budget p s - 1 :=
      budget_move (move_step wire p (s, r))
    have hrest := ih (step wire p s r).1
    change budget p ((runClient wire p).run (step wire p s r).1 rs) ≤ budget p s - (rs.length + 1)
    omega

private theorem over_of_budget (h : budget p s = 0) : s.Over := by
  cases s with
  | start => cases h
  | probing t => cases h
  | finished reachedAt => trivial
  | failed => trivial

/-- The client returns, after at most all its probes. -/
theorem over_of_length (wire : Wire) {rs : List Resume}
    (h : p.maxHops.toNat * p.probesMax + 1 ≤ rs.length) :
    ((runClient wire p).run .start rs).Over := by
  apply over_of_budget
  have hrun := budget_run wire p .start rs
  rw [budget, Nat.sub_eq_zero_of_le h] at hrun
  exact Nat.le_zero.mp hrun

end Length

/-- Every run returns, and has then emitted a well-formed stream exactly if no probe of it ended in
an error other than a Nack or a timeout. -/
theorem wellFormed_iff (wire : Wire) (p : TracerouteParams) :
    (∀ rs : List Resume, p.maxHops.toNat * p.probesMax + 1 ≤ rs.length →
      ((runClient wire p).run .start rs).Over) ∧
    ∀ rs : List Resume, ((runClient wire p).run .start rs).Over →
      (WellFormed (data wire p rs) ↔
        ∀ v ∈ (runClient wire p).visits .start rs, fails v = false) := by
  refine ⟨fun rs h => over_of_length wire h, fun rs hover => ?_⟩
  have hfailed := run_eq_failed_iff wire p rs
  have hstream := streamAt_run wire p rs
  generalize (runClient wire p).run .start rs = s at hover hfailed hstream
  cases s with
  | start => exact hover.elim
  | probing t => exact hover.elim
  | finished reachedAt =>
    refine iff_of_true hstream fun v hv => ?_
    by_contra hfails
    have hcase := hfailed.mpr ⟨v, hv, Bool.not_eq_false _ ▸ hfails⟩
    cases hcase
  | failed =>
    obtain ⟨hop, hclimbed⟩ := hstream
    obtain ⟨v, hv, hfails⟩ := hfailed.mp rfl
    refine iff_of_false hclimbed.not_wellFormed fun hnone => ?_
    rw [hnone v hv] at hfails
    cases hfails

section Samples

/-- The second hop answers, after a timeout and an identity of the first. -/
def sampleReached : List Resume :=
  resumes [.timeout, .data (some (asBytes "TRH-ID:/ndn/r1")) 40, .data none 90]

/-- A session that reaches the producer. -/
theorem sampleReached_wellFormed :
    WellFormed (data sampleWire sampleParams sampleReached) :=
  ((wellFormed_iff sampleWire sampleParams).2 sampleReached trivial).mpr (by decide)

/-- The first probe fails. -/
def sampleBroken : List Resume := resumes [.error "connection closed"]

/-- A session that ends with an error tells no summary. -/
theorem sampleBroken_not_wellFormed :
    ((runClient sampleWire sampleParams).run .start sampleBroken).Over ∧
      ¬WellFormed (data sampleWire sampleParams sampleBroken) :=
  ⟨trivial, climbedTo_one.not_wellFormed⟩

end Samples

end NdnFwd.Traceroute
