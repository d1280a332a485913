import Mathlib.Data.Finset.Card
import Mathlib.Data.Finset.Range
import Mathlib.Data.List.ReduceOption

/-!
# Counting answers

A task that has issued the numbers below `n` hears answers, each of which names a
number or nothing. Counting the answers counts the numbers answered only if every
answer names a number and no two name the same one.
-/

namespace NdnFwd

namespace Tally

variable {α : Type*}

private theorem reduceOption_map_some (as : List α) : (as.map some).reduceOption = as := by
  induction as with
  | nil => rfl
  | cons a as ih => rw [List.map_cons, List.reduceOption_cons_of_some, ih]

/-- A list that drops nothing holds nothing but values. -/
theorem map_reduceOption {answers : List (Option α)}
    (h : answers.reduceOption.length = answers.length) :
    answers.reduceOption.map some = answers := by
  have hall := List.reduceOption_length_eq_iff.mp h
  clear h
  induction answers with
  | nil => rfl
  | cons answer answers ih =>
    obtain ⟨a, rfl⟩ := Option.isSome_iff_exists.mp (hall answer (List.mem_cons_self ..))
    have htail := ih fun x hx => hall x (List.mem_cons_of_mem _ hx)
    rw [List.reduceOption_cons_of_some, List.map_cons, htail]

variable [DecidableEq α]

/-- The numbers that some answer names. -/
def named (answers : List (Option α)) : Finset α := answers.reduceOption.toFinset

/-- A name is among the answers. -/
theorem mem_named {answers : List (Option α)} {a : α} : a ∈ named answers ↔ some a ∈ answers := by
  rw [named, List.mem_toFinset, List.reduceOption_mem_iff]

/-- The number of answers is the number of things they name exactly when each names one
and they all differ. -/
theorem card_named_eq_iff (answers : List (Option α)) :
    (named answers).card = answers.length ↔ ∃ as : List α, answers = as.map some ∧ as.Nodup := by
  constructor
  · intro h
    have hle : (named answers).card ≤ answers.reduceOption.length := List.toFinset_card_le _
    have hlen : answers.reduceOption.length = answers.length :=
      Nat.le_antisymm (List.reduceOption_length_le _) (h ▸ hle)
    have hcard : answers.reduceOption.dedup.length = answers.reduceOption.length := by
      rw [← List.card_toFinset, hlen]
      exact h
    refine ⟨answers.reduceOption, (map_reduceOption hlen).symm, ?_⟩
    exact List.dedup_eq_self.mp (answers.reduceOption.dedup_sublist.eq_of_length hcard)
  · rintro ⟨as, rfl, hnodup⟩
    rw [named, reduceOption_map_some, List.toFinset_card_of_nodup hnodup, List.length_map]

/-- At most `n` numbers are below `n`. -/
theorem card_le_of_below {n : Nat} {named : Finset Nat} (h : ∀ a ∈ named, a < n) :
    named.card ≤ n := by
  rw [← Finset.card_range n]
  exact Finset.card_le_card fun a ha => Finset.mem_range.mpr (h a ha)

/-- Of the numbers below `n`, those neither kept nor named: if the kept and the named ones lie
below `n` and do not overlap, a subtraction counts the others. -/
theorem card_rest {n : Nat} {kept named : Finset Nat} (hk : ∀ a ∈ kept, a < n)
    (hn : ∀ a ∈ named, a < n ∧ a ∉ kept) :
    ((Finset.range n).filter fun a => a ∉ kept ∧ a ∉ named).card = n - kept.card - named.card := by
  have hsub : kept ∪ named ⊆ Finset.range n := by
    intro a ha
    rcases Finset.mem_union.mp ha with ha | ha
    · exact Finset.mem_range.mpr (hk a ha)
    · exact Finset.mem_range.mpr (hn a ha).1
  have hdisj : Disjoint kept named :=
    Finset.disjoint_left.mpr fun a hka hna => (hn a hna).2 hka
  have hrest : ((Finset.range n).filter fun a => a ∉ kept ∧ a ∉ named) =
      Finset.range n \ (kept ∪ named) := by
    ext a
    rw [Finset.mem_filter, Finset.mem_sdiff, Finset.mem_union, not_or]
  rw [hrest, Finset.card_sdiff_of_subset hsub, Finset.card_union_of_disjoint hdisj,
    Finset.card_range, Nat.sub_sub]

end Tally

end NdnFwd
