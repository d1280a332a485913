import Mathlib.Algebra.BigOperators.Group.Finset.Basic
import Mathlib.Algebra.BigOperators.Group.Finset.Piecewise
import Mathlib.Algebra.GroupWithZero.Nat
import Mathlib.Algebra.Order.BigOperators.Group.Finset
import NdnFwd.Core.Table

/-!
# A total over a changing table

Every entry of a table has a reading, and the readings are added up. From one table to the next
entries come and go, and the reading of an entry that stays can only grow. The two totals then
compare as what was gained on the entries of the new table with what went with those removed.
-/

namespace NdnFwd

namespace Table

variable {κ α : Type*}

/-- The readings added up. -/
def total (read : α → Nat) (t : Table κ α) : Nat := (t.values.map read).sum

variable [DecidableEq κ] {read : α → Nat} {t u : Table κ α} {k : κ} {a : α}

/-- The reading of one key, zero if it is not in use. -/
def reading (read : α → Nat) (t : Table κ α) (k : κ) : Nat := ((t.lookup k).map read).getD 0

/-- What went with the entries removed. -/
def lost (read : α → Nat) (t u : Table κ α) : Nat := ∑ k ∈ keySet t \ keySet u, reading read t k

/-- What was added to the readings of the entries of the new table. -/
def gained (read : α → Nat) (t u : Table κ α) : Nat :=
  ∑ k ∈ keySet u, (reading read u k - reading read t k)

/-- No entry that stays has a smaller reading. -/
def Growing (read : α → Nat) (t u : Table κ α) : Prop :=
  ∀ k ∈ keySet t ∩ keySet u, reading read t k ≤ reading read u k

instance : Decidable (Growing read t u) := inferInstanceAs (Decidable (∀ _ ∈ _, _))

/-- Some entry that stays has a larger reading. -/
def Grew (read : α → Nat) (t u : Table κ α) : Prop :=
  ∃ k ∈ keySet t ∩ keySet u, reading read t k < reading read u k

private theorem reading_eq (h : t.lookup k = some a) : reading read t k = read a := by
  rw [reading, h]; rfl

private theorem reading_of_notMem (h : k ∉ keySet t) : reading read t k = 0 := by
  rw [reading, AList.lookup_eq_none.mpr (mem_keySet.not.mp h)]
  rfl

private theorem total_eq_sum : total read t = ∑ k ∈ keySet t, reading read t k := by
  rw [keySet, List.sum_toFinset _ t.keys_nodup, total, values, AList.keys, List.keys,
    List.map_map, List.map_map]
  congr 1
  refine List.map_congr_left fun e he => ?_
  exact (reading_eq (AList.mem_lookup_iff.mpr he)).symm

/-- The balance of two totals. -/
theorem total_add_gained (h : Growing read t u) :
    total read t + gained read t u = total read u + lost read t u := by
  have hle : ∀ k ∈ keySet u, reading read t k ≤ reading read u k := by
    intro k hk
    by_cases hkt : k ∈ keySet t
    · exact h k (Finset.mem_inter.mpr ⟨hkt, hk⟩)
    · rw [reading_of_notMem hkt]
      exact Nat.zero_le _
  have hnew : gained read t u + ∑ k ∈ keySet u, reading read t k = total read u := by
    rw [gained, total_eq_sum, ← Finset.sum_add_distrib]
    exact Finset.sum_congr rfl fun k hk => Nat.sub_add_cancel (hle k hk)
  have hold : ∑ k ∈ keySet u, reading read t k + lost read t u = total read t := by
    have hstay : ∑ k ∈ keySet u, reading read t k =
        ∑ k ∈ keySet t ∩ keySet u, reading read t k := by
      refine (Finset.sum_subset Finset.inter_subset_right fun k hk hnot => ?_).symm
      exact reading_of_notMem fun hkt => hnot (Finset.mem_inter.mpr ⟨hkt, hk⟩)
    rw [hstay, lost, total_eq_sum, Finset.sum_inter_add_sum_sdiff]
  omega

/-- The total grows exactly if more is gained than lost. -/
theorem total_lt_iff (h : Growing read t u) :
    total read t < total read u ↔ lost read t u < gained read t u := by
  have hbalance := total_add_gained h
  omega

private theorem Grew.gained_pos (h : Grew read t u) : 0 < gained read t u := by
  obtain ⟨k, hk, hlt⟩ := h
  exact Finset.sum_pos' (fun _ _ => Nat.zero_le _)
    ⟨k, (Finset.mem_inter.mp hk).2, Nat.sub_pos_of_lt hlt⟩

/-- Where nothing is removed, growth of one entry shows in the total. -/
theorem Grew.total_lt (h : Grew read t u) (hgrow : Growing read t u)
    (hsub : keySet t ⊆ keySet u) : total read t < total read u := by
  rw [total_lt_iff hgrow, lost, Finset.sdiff_eq_empty_iff_subset.mpr hsub, Finset.sum_empty]
  exact h.gained_pos

end Table

end NdnFwd
