import NdnFwd.Core.Machine

/-!
# Passages that keep the order

Items enter a part of a machine, stay for a while and leave it in the order in which they entered:
a queue, or the hand of a task. Where the items that leave one part are those that enter the next,
the two make one part, and so order and number survive any chain of queues and tasks. A channel is
such a queue. When its reader goes, what is queued is dropped with it, and nothing enters any more.
-/

namespace NdnFwd

/-- A channel between two tasks. -/
inductive Channel (α : Type*)
  | opened (queue : List α)
  /-- The reader has gone, and left these items behind. -/
  | closed (dropped : List α)
  deriving DecidableEq, Repr

namespace Channel

variable {α : Type*}

/-- The items on their way. -/
def queue : Channel α → List α
  | opened queue => queue
  | closed _ => []

/-- The items left behind. -/
def dropped : Channel α → List α
  | opened _ => []
  | closed dropped => dropped

/-- Whether the channel is closed. -/
def isClosed : Channel α → Bool
  | closed _ => true
  | opened _ => false

/-- All items that have entered and not been read. -/
def held (c : Channel α) : List α := c.dropped ++ c.queue

/-- The reader goes. -/
def close (c : Channel α) : Channel α := closed c.held

@[simp] theorem held_opened (as : List α) : (opened as).held = as := rfl

@[simp] theorem held_closed (as : List α) : (closed as).held = as := List.append_nil as

@[simp] theorem held_close (c : Channel α) : c.close.held = c.held := held_closed c.held

@[simp] theorem queue_close (c : Channel α) : c.close.queue = [] := rfl

@[simp] theorem isClosed_close (c : Channel α) : c.close.isClosed = true := rfl

/-- An open channel has dropped nothing. -/
theorem dropped_of_open {c : Channel α} (h : c.isClosed = false) : c.dropped = [] := by
  cases c with
  | opened queue => rfl
  | closed dropped => cases h

/-- A closed channel has nothing in it. -/
theorem queue_of_closed {c : Channel α} (h : c.isClosed = true) : c.queue = [] := by
  cases c with
  | opened queue => cases h
  | closed dropped => rfl

end Channel

namespace Machine

variable {σ ι ο α : Type*} {M : Machine σ ι ο}

/-- A part of a machine that items pass in order. Messages say what enters and what leaves. -/
structure Passage (M : Machine σ ι ο) (α : Type*) where
  enters : ο → Option α
  leaves : ο → Option α
  /-- The items inside, oldest first. -/
  held : σ → List α
  step_held : ∀ s i, held s ++ (M.step s i).2.filterMap enters =
    (M.step s i).2.filterMap leaves ++ held (M.step s i).1

namespace Passage

variable (P : M.Passage α)

/-- What a run lets in. -/
def entered (s : σ) (is : List ι) : List α := (M.sent s is).filterMap P.enters

/-- What it lets out. -/
def left (s : σ) (is : List ι) : List α := (M.sent s is).filterMap P.leaves

/-- Nothing is lost, repeated or overtaken. -/
theorem run_held (s : σ) (is : List ι) :
    P.held s ++ P.entered s is = P.left s is ++ P.held (M.run s is) := by
  induction is generalizing s with
  | nil => exact List.append_nil _
  | cons i is ih =>
    have hrest := ih (M.step s i).1
    rw [entered, left] at hrest ⊢
    rw [sent_cons, run_cons, List.filterMap_append, List.filterMap_append, ← List.append_assoc,
      P.step_held, List.append_assoc, hrest, List.append_assoc]

/-- One passage after another. -/
def andThen (Q : M.Passage α) (h : P.leaves = Q.enters) : M.Passage α where
  enters := P.enters
  leaves := Q.leaves
  held s := Q.held s ++ P.held s
  step_held s i := by
    rw [List.append_assoc, P.step_held, ← List.append_assoc, h, Q.step_held, List.append_assoc]

end Passage

end Machine

end NdnFwd
