import Mathlib.Algebra.GroupWithZero.Nat
import Mathlib.Algebra.Order.BigOperators.Group.List
import Mathlib.Algebra.Order.Group.Nat
import Mathlib.Data.List.Sort
import Mathlib.Data.Nat.Cast.Basic

/-!
# Order statistics of a list of samples

The sample at a rank is read off the sorted list. It is known by how many samples lie below it,
so it depends neither on the order in which they were taken nor on how they are sorted.
-/

namespace NdnFwd.Quantile

section Rank

variable {α : Type*} [LinearOrder α] {as bs : List α} {a b : α} {i j : Nat}

/-- The sample at a rank, counted from zero. -/
def rank (as : List α) (i : Nat) : Option α := (as.mergeSort fun a b => a ≤ b)[i]?

private theorem exists_rank (h : i < as.length) : ∃ a, rank as i = some a := by
  have hi : i < (as.mergeSort fun a b => a ≤ b).length := by rwa [List.length_mergeSort]
  exact ⟨_, List.getElem?_eq_getElem hi⟩

/-- A rank is an element. -/
theorem mem_of_rank (h : rank as i = some a) : a ∈ as :=
  List.mem_mergeSort.mp (List.mem_of_getElem? h)

/-- In a sorted list, what stands before a place is no larger, and what stands after it no
smaller. -/
theorem countP_of_sorted (hs : as.SortedLE) (h : as[i]? = some a) :
    as.countP (· < a) ≤ i ∧ i < as.countP (· ≤ a) := by
  obtain ⟨hi, rfl⟩ := List.getElem?_eq_some_iff.mp h
  have hle := List.sortedLE_iff_getElem_le_getElem_of_le.mp hs
  constructor
  · have hdrop : (as.drop i).countP (· < as[i]) = 0 := by
      refine List.countP_eq_zero.mpr fun b hb => ?_
      obtain ⟨k, hk, rfl⟩ := List.mem_drop_iff_getElem.mp hb
      simpa using hle (Nat.le_add_right i k)
    calc as.countP (· < as[i]) = (as.take i ++ as.drop i).countP (· < as[i]) := by
          rw [List.take_append_drop]
      _ = (as.take i).countP (· < as[i]) := by rw [List.countP_append, hdrop, Nat.add_zero]
      _ ≤ (as.take i).length := List.countP_le_length
      _ ≤ i := by rw [List.length_take]; exact Nat.min_le_left ..
  · have htake : (as.take (i + 1)).countP (· ≤ as[i]) = (as.take (i + 1)).length := by
      refine List.countP_eq_length.mpr fun b hb => ?_
      obtain ⟨k, hk, rfl⟩ := List.mem_take_iff_getElem.mp hb
      simpa using hle (i := k) (j := i) (by omega)
    have hall : (as.take (i + 1)).countP (· ≤ as[i]) ≤ as.countP (· ≤ as[i]) :=
      (List.take_sublist _ _).countP_le
    rw [htake, List.length_take] at hall
    omega

/-- At most `i` elements are smaller than the one of rank `i`, and more than `i` are no larger. -/
theorem countP_of_rank (h : rank as i = some a) :
    as.countP (· < a) ≤ i ∧ i < as.countP (· ≤ a) := by
  have hperm := List.mergeSort_perm as fun a b => a ≤ b
  rw [← hperm.countP_eq, ← hperm.countP_eq]
  exact countP_of_sorted (List.pairwise_mergeSort' (· ≤ ·) as).sortedLE h

/-- The sample at a rank is the one that at most so many are below, and more are not above. -/
theorem rank_eq_some_iff :
    rank as i = some a ↔ as.countP (· < a) ≤ i ∧ i < as.countP (· ≤ a) := by
  refine ⟨countP_of_rank, fun ⟨hlt, hle⟩ => ?_⟩
  obtain ⟨b, hb⟩ := exists_rank (Nat.lt_of_lt_of_le hle List.countP_le_length)
  obtain ⟨hltb, hleb⟩ := countP_of_rank hb
  rcases lt_trichotomy a b with h | rfl | h
  · have hmono : as.countP (· ≤ a) ≤ as.countP (· < b) :=
      List.countP_mono_left fun c _ hc => by
        simp only [decide_eq_true_eq] at hc ⊢
        exact lt_of_le_of_lt hc h
    omega
  · exact hb
  · have hmono : as.countP (· ≤ b) ≤ as.countP (· < a) :=
      List.countP_mono_left fun c _ hc => by
        simp only [decide_eq_true_eq] at hc ⊢
        exact lt_of_le_of_lt hc h
    omega

/-- Samples taken in another order have the same ranks. -/
theorem rank_perm (h : as.Perm bs) (i : Nat) : rank as i = rank bs i := by
  ext a
  rw [rank_eq_some_iff, rank_eq_some_iff, h.countP_eq, h.countP_eq]

private theorem rank_mono (ha : rank as i = some a) (hb : rank as j = some b) (h : i ≤ j) :
    a ≤ b := by
  obtain ⟨hi, rfl⟩ := List.getElem?_eq_some_iff.mp ha
  obtain ⟨hj, rfl⟩ := List.getElem?_eq_some_iff.mp hb
  exact List.sortedLE_iff_getElem_le_getElem_of_le.mp
    (List.pairwise_mergeSort' (· ≤ ·) as).sortedLE h

/-- Rank zero is the least sample. -/
theorem rank_zero_le (ha : rank as 0 = some a) (hb : b ∈ as) : a ≤ b := by
  obtain ⟨hlt, -⟩ := countP_of_rank ha
  have hnone := List.countP_eq_zero.mp (Nat.le_zero.mp hlt) b hb
  simpa using hnone

/-- The last rank is the greatest. -/
theorem le_rank_last (ha : rank as (as.length - 1) = some a) (hb : b ∈ as) : b ≤ a := by
  obtain ⟨-, hle⟩ := countP_of_rank ha
  have hlen := List.length_pos_of_mem hb
  have hall : as.countP (· ≤ a) = as.length :=
    Nat.le_antisymm List.countP_le_length (by omega)
  simpa using List.countP_eq_length.mp hall b hb

end Rank

section Digest

/-- The extremes of some samples, their mean rounded down, and the samples at some ranks. The mean
is that of a sum that wraps around in 64 bits. -/
structure Digest where
  min : Nat
  avg : Nat
  max : Nat
  ranked : List Nat
  deriving DecidableEq, Repr

/-- The digest of samples, unless there are none. Which ranks it has depends on how many there
are. -/
def digest (ranks : Nat → List Nat) (samples : List Nat) : Option Digest :=
  let sorted := samples.mergeSort fun a b => a ≤ b
  let n := sorted.length
  if n = 0 then none
  else some {
    min := sorted.getD 0 0
    avg := sorted.sum % 2 ^ 64 / n
    max := sorted.getD (n - 1) 0
    ranked := (ranks n).map fun i => sorted.getD i 0 }

variable {ranks : Nat → List Nat} {samples more : List Nat} {d : Digest} {i k : Nat}

/-- A digest is missing exactly if there are no samples. -/
theorem digest_eq_none_iff : digest ranks samples = none ↔ samples = [] := by
  rw [digest, List.length_mergeSort]
  split_ifs with h
  · exact iff_of_true rfl (List.length_eq_zero_iff.mp h)
  · refine iff_of_false (fun he => by cases he) fun he => h ?_
    rw [he, List.length_nil]

private theorem rank_of_getD (h : i < samples.length) :
    rank samples i = some ((samples.mergeSort fun a b => a ≤ b).getD i 0) := by
  have hi : i < (samples.mergeSort fun a b => a ≤ b).length := by rwa [List.length_mergeSort]
  rw [rank, List.getD_eq_getElem?_getD, List.getElem?_eq_getElem hi, Option.getD_some]

/-- What a digest holds. -/
structure Digests (ranks : Nat → List Nat) (samples : List Nat) (d : Digest) : Prop where
  pos : 0 < samples.length
  min : rank samples 0 = some d.min
  avg : d.avg = samples.sum % 2 ^ 64 / samples.length
  max : rank samples (samples.length - 1) = some d.max
  ranked : d.ranked.map some = (ranks samples.length).map (rank samples)

/-- A digest tells of its samples. -/
theorem digests_of_digest (hranks : ∀ i ∈ ranks samples.length, i < samples.length)
    (h : digest ranks samples = some d) : Digests ranks samples d := by
  have hperm := List.mergeSort_perm samples fun a b => a ≤ b
  rw [digest, List.length_mergeSort, hperm.sum_eq] at h
  split_ifs at h with hn
  obtain rfl := Option.some.inj h
  have hpos : 0 < samples.length := Nat.pos_of_ne_zero hn
  refine ⟨hpos, rank_of_getD hpos, rfl, rank_of_getD (by omega), ?_⟩
  rw [List.map_map]
  exact List.map_congr_left fun i hi => (rank_of_getD (hranks i hi)).symm

/-- The digest does not tell the order of the samples. -/
theorem digest_perm (h : samples.Perm more) : digest ranks samples = digest ranks more := by
  have hsort : (samples.mergeSort fun a b => a ≤ b) = more.mergeSort fun a b => a ≤ b := by
    apply List.ext_getElem?
    intro i
    exact rank_perm h i
  rw [digest, digest, hsort]

namespace Digests

/-- The minimum is at most every sample. -/
theorem min_le (h : Digests ranks samples d) {a : Nat} (ha : a ∈ samples) : d.min ≤ a :=
  rank_zero_le h.min ha

/-- The maximum is at least every sample. -/
theorem le_max (h : Digests ranks samples d) {a : Nat} (ha : a ∈ samples) : a ≤ d.max :=
  le_rank_last h.max ha

/-- The mean lies between the extremes, unless the sum wraps around. -/
theorem mean_mem (h : Digests ranks samples d) (hsum : samples.sum < 2 ^ 64) :
    d.min ≤ d.avg ∧ d.avg ≤ d.max := by
  rw [h.avg, Nat.mod_eq_of_lt hsum, Nat.le_div_iff_mul_le h.pos,
    Nat.div_le_iff_le_mul_add_pred h.pos]
  have hlow := List.card_nsmul_le_sum samples d.min fun a ha => h.min_le ha
  have hhigh := List.sum_le_card_nsmul samples d.max fun a ha => h.le_max ha
  simp only [nsmul_eq_mul, Nat.cast_id] at hlow hhigh
  constructor
  · rwa [Nat.mul_comm]
  · omega

/-- The samples at ascending ranks ascend. -/
theorem pairwise_ranked {is as : List Nat} (h : as.map some = is.map (rank samples))
    (his : is.Pairwise (· ≤ ·)) : as.Pairwise (· ≤ ·) := by
  induction is generalizing as with
  | nil =>
    rw [List.map_nil, List.map_eq_nil_iff] at h
    rw [h]
    exact List.Pairwise.nil
  | cons i is ih =>
    obtain ⟨hi, his⟩ := List.pairwise_cons.mp his
    cases as with
    | nil => cases h
    | cons a as =>
      obtain ⟨ha, has⟩ := List.cons.inj h
      refine List.pairwise_cons.mpr ⟨fun b hb => ?_, ih has his⟩
      have hmem : some b ∈ is.map (rank samples) := by
        rw [← has]
        exact List.mem_map_of_mem hb
      obtain ⟨j, hj, hrank⟩ := List.mem_map.mp hmem
      exact rank_mono ha.symm hrank (hi j hj)

private theorem mem_samples (h : Digests ranks samples d) {a : Nat} (ha : a ∈ d.ranked) :
    a ∈ samples := by
  have hmem : some a ∈ (ranks samples.length).map (rank samples) := by
    rw [← h.ranked]
    exact List.mem_map_of_mem ha
  obtain ⟨i, -, hi⟩ := List.mem_map.mp hmem
  exact mem_of_rank hi

/-- The figures other than the mean ascend from the least sample to the greatest. -/
theorem sorted (h : Digests ranks samples d)
    (hranks : (ranks samples.length).Pairwise (· ≤ ·)) :
    (d.min :: d.ranked ++ [d.max]).Pairwise (· ≤ ·) := by
  rw [List.cons_append, List.pairwise_cons, List.pairwise_append]
  refine ⟨fun a ha => ?_, pairwise_ranked h.ranked hranks, List.pairwise_singleton _ _, ?_⟩
  · rcases List.mem_append.mp ha with ha | ha
    · exact h.min_le (h.mem_samples ha)
    · rw [List.mem_singleton.mp ha]
      exact h.min_le (mem_of_rank h.max)
  · intro a ha b hb
    rw [List.mem_singleton.mp hb]
    exact h.le_max (h.mem_samples ha)

end Digests

end Digest

end NdnFwd.Quantile
