import Mathlib.Tactic.Linarith
import NdnFwd.Models.Ping.Summary

/-!
# The round-trip times in the summary

The index of the 99th percentile is a product of doubles. It is rounded twice and still is an index
of the samples, no lower than that of the median, and ninety-nine in a hundred samples are not above
what it selects.
-/

namespace NdnFwd.Ping

section Index

variable {n : Nat}

private theorem p99Index_lt (h : 0 < n) : p99Index n < n := by
  obtain ⟨-, hn⟩ := Rounding.significant_near 53 n
  obtain ⟨-, hprod⟩ :=
    Rounding.significant_near 53 (Rounding.significant 53 n * 8917127262193582)
  rw [p99Index, Nat.div_lt_iff_lt_mul (Nat.two_pow_pos 53)]
  omega

private theorem half_le_p99Index (n : Nat) : n / 2 ≤ p99Index n := by
  obtain ⟨hn, -⟩ := Rounding.significant_near 53 n
  obtain ⟨hprod, -⟩ :=
    Rounding.significant_near 53 (Rounding.significant 53 n * 8917127262193582)
  have hhalf := Nat.div_mul_le_self n 2
  rw [p99Index, Nat.le_div_iff_mul_le (Nat.two_pow_pos 53)]
  generalize n / 2 = half at hhalf ⊢
  linarith

/-- The exact product may fall short of a whole number, but rounding does not fall short of the one
below it. -/
theorem le_p99Index (h : n ≤ 2 ^ 50) : (99 * n + 99) / 100 - 1 ≤ p99Index n := by
  have hexact : Rounding.significant 53 n = n :=
    Rounding.significant_of_lt (Nat.lt_of_le_of_lt h (by norm_num))
  rw [p99Index, hexact, Nat.le_div_iff_mul_le (Nat.two_pow_pos 53)]
  refine Rounding.le_significant (Nat.lt_of_le_of_lt (m := n) ?_ ?_) ?_
  · omega
  · exact Nat.lt_of_le_of_lt h (by norm_num)
  · omega

end Index

section Figures

variable {wire : Wire} {rtts : List Nat}

/-- The percentiles are places in the list. -/
theorem percentiles_lt (h : 0 < rtts.length) : ∀ i ∈ percentiles rtts.length, i < rtts.length := by
  intro i hi
  simp only [percentiles, List.mem_cons, List.not_mem_nil, or_false] at hi
  rcases hi with rfl | rfl
  · omega
  · exact p99Index_lt h

private theorem percentiles_pairwise (n : Nat) : (percentiles n).Pairwise (· ≤ ·) := by
  rw [percentiles, List.pairwise_pair]
  exact half_le_p99Index n

/-- The figures of a summary are those of some round-trip times. -/
structure PingSummary.Describes (s : PingSummary) (rtts : List Nat) : Prop where
  ascending : [s.rttMinUs, s.rttP50Us, s.rttP99Us, s.rttMaxUs].Pairwise (· ≤ ·)
  extremes : s.rttMinUs ∈ rtts ∧ s.rttMaxUs ∈ rtts ∧
    ∀ rtt ∈ rtts, s.rttMinUs ≤ rtt ∧ rtt ≤ s.rttMaxUs
  /-- The sum wraps around in 64 bits. -/
  avg : s.rttAvgUs = rtts.sum % 2 ^ 64 / rtts.length ∧
    (rtts.sum < 2 ^ 64 → s.rttMinUs ≤ s.rttAvgUs ∧ s.rttAvgUs ≤ s.rttMaxUs)
  /-- At most half are below the median, and more than half are not above it. -/
  half : 2 * rtts.countP (· < s.rttP50Us) ≤ rtts.length ∧
    rtts.length < 2 * rtts.countP (· ≤ s.rttP50Us)
  /-- Ninety-nine in a hundred are not above the 99th percentile. -/
  most : rtts.length ≤ 2 ^ 50 → 99 * rtts.length ≤ 100 * rtts.countP (· ≤ s.rttP99Us)

private theorem describes_pingSummary {c : Counts} (h : c.rttResults ≠ []) :
    (pingSummary wire c).Describes c.rttResults := by
  cases hdigest : Quantile.digest percentiles c.rttResults with
  | none => exact absurd (Quantile.digest_eq_none_iff.mp hdigest) h
  | some d =>
    have hpos : 0 < c.rttResults.length := List.length_pos_iff.mpr h
    have hd := Quantile.digests_of_digest (percentiles_lt hpos) hdigest
    have hsorted := hd.sorted (percentiles_pairwise _)
    obtain ⟨min, avg, max, ranked⟩ := d
    have hranked := hd.ranked
    -- the digest has the two ranks that were asked for
    obtain ⟨p50, p99, rfl⟩ : ∃ p50 p99, ranked = [p50, p99] := by
      have hlen := congrArg List.length hranked
      rw [List.length_map, List.length_map] at hlen
      exact List.length_eq_two.mp hlen
    obtain ⟨h50, h99⟩ : Quantile.rank c.rttResults (c.rttResults.length / 2) = some p50 ∧
        Quantile.rank c.rttResults (p99Index c.rttResults.length) = some p99 := by
      simpa [percentiles, eq_comm] using hranked
    have hfigures : computeRttStats wire c.rttResults =
        (min, avg, max, p50, p99, wire.stddev avg c.rttResults) := by
      rw [computeRttStats, hdigest]
      rfl
    obtain ⟨hbelow, hupto⟩ := Quantile.countP_of_rank h50
    obtain ⟨-, hmost⟩ := Quantile.countP_of_rank h99
    rw [pingSummary, hfigures]
    refine ⟨hsorted, ⟨Quantile.mem_of_rank hd.min, Quantile.mem_of_rank hd.max, fun rtt hrtt =>
      ⟨hd.min_le hrtt, hd.le_max hrtt⟩⟩, ⟨hd.avg, hd.mean_mem⟩, ⟨?_, ?_⟩, fun hle => ?_⟩
    · simp only
      omega
    · simp only
      omega
    · have hindex := le_p99Index hle
      simp only
      omega

/-- Three answers, an Interest that times out, and one more answer. -/
def fourAnswers : List Resume :=
  [⟨.timeout, false, 0⟩, ⟨.data [] 40, false, 0⟩, ⟨.timeout, false, 0⟩, ⟨.data [] 10, false, 0⟩,
    ⟨.timeout, false, 0⟩, ⟨.data [] 25, false, 0⟩, ⟨.timeout, false, 0⟩, ⟨.timeout, false, 0⟩,
    ⟨.timeout, false, 0⟩, ⟨.data [] 90, false, 5000⟩]

/-- The figures of the summary describe the round-trip times of the results before it. -/
theorem summary_figures {p : PingClientParams} {rs : List Resume}
    (h : (runClient wire p).run .start rs = .finished)
    (hne : results ((runClient wire p).sent .start rs) ≠ []) :
    ∃ s, structured ((runClient wire p).sent .start rs) =
        (results ((runClient wire p).sent .start rs)).map .pingResult ++ [.pingSummary s] ∧
      s.Describes ((results ((runClient wire p).sent .start rs)).map PingResult.rttUs) := by
  obtain ⟨c, hrtts, hagrees⟩ := exists_summary h
  refine ⟨_, hagrees.stream, ?_⟩
  rw [hrtts]
  refine describes_pingSummary fun hnil => hne ?_
  rwa [hnil, List.map_eq_nil_iff] at hrtts

/-- Four answers and a loss. -/
theorem fourAnswers_figures :
    results ((runClient flatWire ⟨[], 5, 1000, 4000⟩).sent .start fourAnswers) =
        [⟨0, 40⟩, ⟨1, 10⟩, ⟨2, 25⟩, ⟨4, 90⟩] ∧
      ∃ s, structured ((runClient flatWire ⟨[], 5, 1000, 4000⟩).sent .start fourAnswers) =
          (results ((runClient flatWire ⟨[], 5, 1000, 4000⟩).sent .start fourAnswers)).map
            .pingResult ++ [.pingSummary s] ∧
        s.Describes ((results ((runClient flatWire ⟨[], 5, 1000, 4000⟩).sent .start
          fourAnswers)).map PingResult.rttUs) := by
  have hresults : results ((runClient flatWire ⟨[], 5, 1000, 4000⟩).sent .start fourAnswers) =
      [⟨0, 40⟩, ⟨1, 10⟩, ⟨2, 25⟩, ⟨4, 90⟩] := rfl
  exact ⟨hresults, summary_figures rfl (hresults ▸ List.cons_ne_nil _ _)⟩

end Figures

end NdnFwd.Ping
