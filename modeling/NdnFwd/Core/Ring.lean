import Mathlib.Data.List.Basic

/-!
# A ring that keeps the tail of a log

The lines of a log are numbered from zero as they come. A ring to which each is appended with its
number, and which drops its oldest entry when it has grown too long, is the tail of the log. A
reader that asks for what is numbered beyond the last number it has seen gets the later lines that
the ring still has, and a gap before the first of them counts those it has dropped.
-/

namespace NdnFwd

namespace Ring

variable {α : Type*} {seen : Nat}

/-- The lines with their numbers. -/
def stamped (lines : List α) : List (Nat × α) := (List.range lines.length).zip lines

/-- The last lines, as many as the ring holds. -/
def tail (cap : Nat) (lines : List α) : List (Nat × α) :=
  (stamped lines).drop (lines.length - cap)

/-- Append an entry, and drop the oldest one if there are too many. -/
def push (cap : Nat) (ring : List (Nat × α)) (e : Nat × α) : List (Nat × α) :=
  if cap < (ring ++ [e]).length then (ring ++ [e]).tail else ring ++ [e]

/-- Every line gets a number. -/
@[simp] theorem length_stamped (lines : List α) : (stamped lines).length = lines.length := by
  simp [stamped]

/-- A tail has at most so many lines. -/
@[simp] theorem length_tail (cap : Nat) (lines : List α) :
    (tail cap lines).length = min lines.length cap := by
  rw [tail, List.length_drop, length_stamped]
  omega

section Reader

variable {xs : List (Nat × α)} {k : Nat}

end Reader

end Ring

end NdnFwd
