import Mathlib.Data.Finset.Basic
import Mathlib.Logic.Relation

/-!
# The jobs of a windowed transfer

A finite set of jobs, each of which is untouched, under way or done. A job may
only be taken up once and only be finished while it is under way. Retrying a job
leaves it where it is. This is what a pipelined fetcher is for: nothing is lost,
and nothing that is done is asked for again.
-/

namespace NdnFwd

/-- A split of the jobs into three classes that do not overlap. -/
@[ext] structure Window (α : Type*) [DecidableEq α] where
  /-- Jobs not taken up yet. -/
  fresh : Finset α
  /-- Jobs under way. -/
  pending : Finset α
  /-- Finished jobs. -/
  done : Finset α
  /-- No job under way is untouched. -/
  fresh_pending : Disjoint fresh pending
  /-- No finished job is untouched. -/
  fresh_done : Disjoint fresh done
  /-- No finished job is still under way. -/
  pending_done : Disjoint pending done

namespace Window

variable {α : Type*} [DecidableEq α]

/-- The permitted moves: take up fresh jobs, or finish one that is under way. -/
inductive Move : Window α → Window α → Prop
  | issue {w w' : Window α} (batch : Finset α) (hb : batch ⊆ w.fresh)
      (hf : w'.fresh = w.fresh \ batch) (hp : w'.pending = w.pending ∪ batch)
      (hd : w'.done = w.done) : Move w w'
  | finish {w w' : Window α} (a : α) (ha : a ∈ w.pending) (hf : w'.fresh = w.fresh)
      (hp : w'.pending = w.pending.erase a) (hd : w'.done = insert a w.done) : Move w w'

/-- Exactly one of three propositions holds. -/
def ExactlyOne (p q r : Prop) : Prop := (p ∧ ¬q ∧ ¬r) ∨ (¬p ∧ q ∧ ¬r) ∨ (¬p ∧ ¬q ∧ r)

end Window

end NdnFwd
