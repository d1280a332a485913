import Mathlib.Data.List.Basic

/-!
# Write-once slots

A list of optional values in which an empty slot is filled at most once. Counting
the filled slots tells when the list is complete, and a complete list has exactly
one reading as a list of values.
-/

namespace NdnFwd

namespace Slots

variable {α : Type*}

/-- Number of filled slots. -/
def filled (xs : List (Option α)) : Nat := xs.countP Option.isSome

/-- Empty slots are not filled. -/
@[simp] theorem filled_replicate_none (n : Nat) :
    filled (List.replicate n (none : Option α)) = 0 := by
  simp [filled, List.countP_replicate]

/-- Filling an empty slot raises the count by one. -/
theorem filled_set {xs : List (Option α)} {i : Nat} (h : xs[i]? = some none) (a : α) :
    filled (xs.set i (some a)) = filled xs + 1 := by
  obtain ⟨hi, he⟩ := List.getElem?_eq_some_iff.mp h
  simp [filled, List.countP_set hi, he]

private theorem filled_le_length (xs : List (Option α)) : filled xs ≤ xs.length :=
  List.countP_le_length

/-- Every filled slot satisfies the predicate at its own index. -/
def Holds (P : Nat → α → Prop) (xs : List (Option α)) : Prop :=
  ∀ i a, xs[i]? = some (some a) → P i a

/-- Empty slots satisfy any condition on what is filled in. -/
theorem holds_replicate_none (P : Nat → α → Prop) (n : Nat) :
    Holds P (List.replicate n none) := by
  intro i a h
  rw [List.getElem?_replicate] at h
  split at h <;> simp at h

/-- Filling one slot keeps the predicate, provided that the new value satisfies it. -/
theorem Holds.set {P : Nat → α → Prop} {xs : List (Option α)} (h : Holds P xs) {i : Nat} {a : α}
    (ha : P i a) : Holds P (xs.set i (some a)) := by
  intro j b hj
  rw [List.getElem?_set] at hj
  split at hj
  next he =>
    split at hj
    · cases hj
      exact he ▸ ha
    · cases hj
  next => exact h j b hj

/-- The values of a list without empty slots. -/
def values : List (Option α) → Option (List α)
  | [] => some []
  | none :: _ => none
  | some a :: xs => (values xs).map (a :: ·)

/-- Only a list of filled slots has a reading, and the reading is its values. -/
theorem values_eq_some_iff {xs : List (Option α)} {as : List α} :
    values xs = some as ↔ xs = as.map some := by
  induction xs generalizing as with
  | nil => cases as <;> simp [values]
  | cons x xs ih =>
    cases x with
    | none => cases as <;> simp [values]
    | some a =>
      cases as with
      | nil => simp [values]
      | cons b bs =>
        simp only [values, Option.map_eq_some_iff, ih, List.map_cons, List.cons.injEq,
          Option.some.injEq, exists_eq_right_right]
        exact and_comm

/-- Counting up to the length means that no slot is empty. -/
theorem exists_values {xs : List (Option α)} (h : filled xs = xs.length) :
    ∃ as, values xs = some as := by
  induction xs with
  | nil => exact ⟨[], rfl⟩
  | cons x xs ih =>
    cases x with
    | none =>
      have hle := filled_le_length xs
      have hx : filled (none :: xs) = filled xs := by simp [filled]
      rw [hx, List.length_cons] at h
      omega
    | some a =>
      have hx : filled (some a :: xs) = filled xs + 1 := by simp [filled]
      rw [hx, List.length_cons] at h
      obtain ⟨as, has⟩ := ih (by omega)
      exact ⟨a :: as, by rw [values, has, Option.map_some]⟩

end Slots

end NdnFwd
