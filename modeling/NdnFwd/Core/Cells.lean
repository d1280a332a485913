import Mathlib.Logic.Function.Basic
import NdnFwd.Core.Table

/-!
# A shared table as private cells

Several owners keep one entry each in a shared table, under keys of their own. As long as
no two owners have one key, each of them might as well have a cell to itself: what one
stores or changes is what it reads back, and nobody else notices.
-/

namespace NdnFwd

namespace Table

variable {ι κ α : Type*} [DecidableEq κ]

/-- What each owner reads under its key, if it has one. -/
def cells (key : ι → Option κ) (t : Table κ α) (i : ι) : Option α := (key i).bind t.lookup

/-- No two owners have one key. -/
def KeysApart (key : ι → Option κ) : Prop := ∀ i j k, key i = some k → key j = some k → i = j

variable {key : ι → Option κ} {t : Table κ α} {i : ι} {k : κ}

/-- A cell shows the entry of its key. -/
theorem cells_eq_lookup (h : key i = some k) : cells key t i = t.lookup k := by
  rw [cells, h, Option.bind_some]

private theorem lookup_other {t t' : Table κ α} (happart : KeysApart key) (h : key i = some k)
    (hsame : ∀ k', k' ≠ k → t'.lookup k' = t.lookup k') {j : ι} (hj : j ≠ i) :
    cells key t' j = cells key t j := by
  unfold cells
  cases hk : key j with
  | none => rfl
  | some k' => exact hsame k' fun heq => hj (happart j i k' hk (heq ▸ h))

variable [DecidableEq ι]

/-- Storing under an owner's key fills its cell. -/
theorem cells_insert (happart : KeysApart key) (h : key i = some k) (a : α) :
    cells key (t.insert k a) = Function.update (cells key t) i (some a) := by
  ext1 j
  by_cases hj : j = i
  · subst hj
    rw [Function.update_self, cells_eq_lookup h]
    exact AList.lookup_insert t
  · rw [Function.update_of_ne hj]
    exact lookup_other happart h (fun _ hk => AList.lookup_insert_ne hk) hj

/-- Changing the entry under an owner's key changes its cell. -/
theorem cells_modify (happart : KeysApart key) (h : key i = some k) (f : α → α) :
    cells key (modify k f t) = Function.update (cells key t) i ((cells key t i).map f) := by
  ext1 j
  by_cases hj : j = i
  · subst hj
    rw [Function.update_self, cells_eq_lookup h, cells_eq_lookup h, lookup_modify]
  · rw [Function.update_of_ne hj]
    exact lookup_other happart h (fun _ hk => lookup_modify_ne hk f) hj

end Table

end NdnFwd
