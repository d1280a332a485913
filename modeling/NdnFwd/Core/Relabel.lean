import Mathlib.Data.List.Sort
import NdnFwd.Core.Table

/-!
# A table kept in another form

A table of typed keys and values may be kept under other keys, with its values encoded. As long as
no two keys in use share a form, storing and looking up mean the same on both sides.
-/

namespace NdnFwd.Table

variable {κ κ' α β : Type*}

/-- The second table holds the entries of the first, every key and every value in another form. -/
def Relabels (f : κ → κ') (g : α → β) (t : Table κ α) (t' : Table κ' β) : Prop :=
  t'.entries = t.entries.map fun e => ⟨f e.1, g e.2⟩

namespace Relabels

variable {f : κ → κ'} {g : α → β} {t : Table κ α} {t' : Table κ' β}

/-- An empty table has nothing to relabel. -/
theorem empty : Relabels f g (∅ : Table κ α) ∅ := rfl

variable [DecidableEq κ] [DecidableEq κ'] {k : κ}

/-- An entry is added under its new label. -/
theorem insert (h : Relabels f g t t') (hk : ∀ k' ∈ t, f k' = f k → k' = k) (a : α) :
    Relabels f g (t.insert k a) (t'.insert (f k) (g a)) := by
  have hkerase : ∀ es : List ((_ : κ) × α), (∀ k' ∈ es.keys, f k' = f k → k' = k) →
      (es.map fun e => (⟨f e.1, g e.2⟩ : (_ : κ') × β)).kerase (f k) =
        (es.kerase k).map fun e => ⟨f e.1, g e.2⟩ := by
    intro es hes
    induction es with
    | nil => rfl
    | cons e es ih =>
      rw [List.map_cons]
      by_cases heq : k = e.1
      · have hf : f k = f e.1 := congrArg f heq
        rw [List.kerase_cons_eq heq, List.kerase_cons_eq hf]
      · have hf : f k ≠ f e.1 := fun hkk => heq (hes e.1 List.mem_cons_self hkk.symm).symm
        rw [List.kerase_cons_ne heq, List.kerase_cons_ne hf, List.map_cons,
          ih fun k'' hk'' => hes k'' (List.mem_cons_of_mem _ hk'')]
  rw [Relabels, AList.entries_insert, AList.entries_insert, h, List.map_cons,
    hkerase t.entries hk]

end Relabels

end NdnFwd.Table
