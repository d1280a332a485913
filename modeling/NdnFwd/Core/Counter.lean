import Mathlib.Algebra.GroupWithZero.Nat
import NdnFwd.Core.Machine

/-!
# A counter that is read by emptying it

Threads add to a machine word, and another takes out whatever has come together since it last did.
Each of these is one atomic step, so the word has a history in which they follow one another. Adding
wraps around.
-/

namespace NdnFwd

namespace Counter

/-- An atomic step. -/
inductive Op
  /-- `fetch_add`. -/
  | add (n : Nat)
  /-- `swap` with zero. -/
  | drain
  deriving DecidableEq, Repr

/-- What it adds. -/
def Op.added? : Op → Option Nat
  | add n => some n
  | drain => none

/-- What the steps add, in order. -/
def added (ops : List Op) : List Nat := ops.filterMap Op.added?

/-- A word of some bits. A step that empties it reports what was in it. -/
def word (bits : Nat) : Machine Nat Op Nat where
  step c
    | .add n => ((c + n) % 2 ^ bits, [])
    | .drain => (0, [c])

variable {bits c : Nat}

@[simp] theorem added_add (n : Nat) (ops : List Op) : added (.add n :: ops) = n :: added ops := rfl

@[simp] theorem added_drain (ops : List Op) : added (.drain :: ops) = added ops := rfl

@[simp] theorem step_add (n : Nat) : (word bits).step c (.add n) = ((c + n) % 2 ^ bits, []) := rfl

@[simp] theorem step_drain : (word bits).step c .drain = (0, [c]) := rfl

/-- What was taken out and what is left. -/
def total (bits c : Nat) (ops : List Op) : Nat :=
  ((word bits).sent c ops).sum + (word bits).run c ops

private theorem total_nil : total bits c [] = c := Nat.zero_add c

private theorem total_add (n : Nat) (ops : List Op) :
    total bits c (.add n :: ops) = total bits ((c + n) % 2 ^ bits) ops := rfl

private theorem total_drain (ops : List Op) :
    total bits c (.drain :: ops) = c + total bits 0 ops := by
  simp [total, Nat.add_assoc]

/-- It is what was put in, but for wrapping around. -/
theorem total_mod (bits c : Nat) (ops : List Op) :
    total bits c ops % 2 ^ bits = (c + (added ops).sum) % 2 ^ bits := by
  induction ops generalizing c with
  | nil => rw [total_nil]; rfl
  | cons op ops ih =>
    cases op with
    | add n => rw [total_add, ih, added_add, List.sum_cons, ← Nat.add_assoc, Nat.mod_add_mod]
    | drain => rw [total_drain, added_drain, ← Nat.add_mod_mod, ih, Nat.add_mod_mod, Nat.zero_add]

/-- It is never more. -/
theorem total_le (ops : List Op) : total bits c ops ≤ c + (added ops).sum := by
  induction ops generalizing c with
  | nil => exact Nat.le_of_eq total_nil
  | cons op ops ih =>
    cases op with
    | add n =>
      rw [total_add, added_add, List.sum_cons, ← Nat.add_assoc]
      exact Nat.le_trans ih (Nat.add_le_add_right (Nat.mod_le _ _) _)
    | drain =>
      have hrest := ih (c := 0)
      rw [total_drain, added_drain]
      omega

/-- It is what was put in if that fits the word. -/
theorem total_eq {ops : List Op} (h : c + (added ops).sum < 2 ^ bits) :
    total bits c ops = c + (added ops).sum := by
  have hmod := total_mod bits c ops
  rwa [Nat.mod_eq_of_lt h, Nat.mod_eq_of_lt (Nat.lt_of_le_of_lt (total_le ops) h)] at hmod

/-- Each step that empties the word makes one report. -/
theorem length_sent (ops : List Op) :
    ((word bits).sent c ops).length = ops.count .drain := by
  induction ops generalizing c with
  | nil => rfl
  | cons op ops ih =>
    rw [Machine.sent_cons, List.length_append, ih, List.count_cons, Nat.add_comm]
    cases op with
    | add n => rfl
    | drain => rfl

end Counter

end NdnFwd
