import NdnFwd.Core.Table

/-!
# A table read in the order of its keys

A map that keeps its keys in order is read in that order; apart from this it is a table like any
other.
-/

namespace NdnFwd

/-- The first difference decides; a list comes before those that continue it. -/
def lexLe {α : Type*} [LT α] [DecidableLT α] [DecidableEq α] : List α → List α → Bool
  | [], _ => true
  | _ :: _, [] => false
  | a :: as, b :: bs => decide (a < b) || decide (a = b) && lexLe as bs

namespace Table

variable {κ α : Type*} (le : κ → κ → Bool)

/-- The entries in the order of their keys. -/
def listing (t : Table κ α) : List (κ × α) := t.pairs.mergeSort fun e e' => le e.1 e'.1

variable {le} {t : Table κ α}

end Table

end NdnFwd
