import NdnFwd.Core.Window
import Mathlib.Data.List.Nodup
import Mathlib.Data.List.Perm.Basic

/-!
# Taking items in once

A store-and-forward task notes every item it has taken in, holds items until it can
ship them, and takes no item in twice. An item it noted but neither holds nor has
shipped is lost for good: no later move brings it back.
-/

namespace NdnFwd

/-- What a store-and-forward task knows of its items. -/
structure Ledger (α : Type*) where
  /-- Items taken in so far. -/
  seen : Finset α
  /-- Items waiting to be shipped. -/
  held : List α
  /-- Items shipped. -/
  gone : List α

namespace Ledger

variable {α : Type*}

/-- Ship everything that waits. -/
def ship (l : Ledger α) : Ledger α := ⟨l.seen, [], l.gone ++ l.held⟩

/-- Taken in, but neither waiting nor shipped. -/
def Lost (l : Ledger α) (a : α) : Prop := a ∈ l.seen ∧ a ∉ l.gone ++ l.held

/-- No item waits or was shipped twice, and none without having been taken in. -/
structure Sound (l : Ledger α) : Prop where
  /-- Nothing is there twice. -/
  nodup : (l.gone ++ l.held).Nodup
  /-- Everything was taken in. -/
  noted : ∀ a ∈ l.gone ++ l.held, a ∈ l.seen

/-- Everything that waits is shipped. -/
theorem Sound.ship {l : Ledger α} (h : l.Sound) : l.ship.Sound where
  nodup := by
    rw [Ledger.ship, List.append_nil]
    exact h.nodup
  noted b hb := by
    rw [Ledger.ship, List.append_nil] at hb
    exact h.noted b hb

/-- Shipping loses nothing and recovers nothing. -/
theorem lost_ship {l : Ledger α} {a : α} : l.ship.Lost a ↔ l.Lost a := by
  rw [Lost, Lost, ship, List.append_nil]

variable [DecidableEq α]

/-- Take in an item that will be shipped. -/
def take (a : α) (l : Ledger α) : Ledger α := ⟨insert a l.seen, l.held ++ [a], l.gone⟩

/-- Take in an item and drop it. -/
def drop (a : α) (l : Ledger α) : Ledger α := ⟨insert a l.seen, l.held, l.gone⟩

/-- An item is shipped once, or waits once, or may still be taken in, and only one of these. -/
def Accounted (l : Ledger α) (a : α) : Prop :=
  Window.ExactlyOne (l.gone.count a = 1) (l.held.count a = 1) (a ∉ l.seen)

private theorem count_eq_one_iff {l : List α} (h : l.Nodup) {a : α} : l.count a = 1 ↔ a ∈ l := by
  constructor
  · intro hc
    exact List.count_pos_iff.mp (by omega)
  · exact List.count_eq_one_of_mem h

/-- In a sound ledger an item is accounted for exactly when it is not lost. -/
theorem Sound.accounted_iff {l : Ledger α} (h : l.Sound) (a : α) : l.Accounted a ↔ ¬l.Lost a := by
  obtain ⟨hgone, hheld, hapart⟩ := List.nodup_append.mp h.nodup
  have hboth : a ∈ l.gone → a ∉ l.held := fun hg hh => hapart a hg a hh rfl
  have hnoted := h.noted a
  rw [List.mem_append] at hnoted
  rw [Accounted, Lost, Window.ExactlyOne, count_eq_one_iff hgone, count_eq_one_iff hheld,
    List.mem_append]
  tauto

/-- An item is taken in that was not seen before. -/
theorem Sound.take {l : Ledger α} (h : l.Sound) {a : α} (ha : a ∉ l.seen) : (l.take a).Sound where
  nodup := by
    have hnot : a ∉ l.gone ++ l.held := fun hmem => ha (h.noted a hmem)
    rw [Ledger.take, ← List.append_assoc]
    exact List.nodup_append.mpr ⟨h.nodup, List.nodup_singleton a,
      fun b hb c hc he => hnot (List.mem_singleton.mp hc ▸ he ▸ hb)⟩
  noted b hb := by
    rw [Ledger.take, ← List.append_assoc, List.mem_append, List.mem_singleton] at hb
    rw [Ledger.take, Finset.mem_insert]
    exact hb.elim (fun hmem => Or.inr (h.noted b hmem)) Or.inl

/-- An item is dropped. -/
theorem Sound.drop {l : Ledger α} (h : l.Sound) (a : α) : (l.drop a).Sound where
  nodup := h.nodup
  noted b hb := Finset.mem_insert_of_mem (h.noted b hb)

/-- A new item is not lost by being taken in. -/
theorem lost_take {l : Ledger α} {a b : α} : (l.take a).Lost b ↔ b ≠ a ∧ l.Lost b := by
  simp only [Lost, take, Finset.mem_insert, List.mem_append, List.mem_singleton]
  tauto

/-- Dropping a new item loses it. -/
theorem lost_drop {l : Ledger α} (h : l.Sound) {a b : α} (ha : a ∉ l.seen) :
    (l.drop a).Lost b ↔ b = a ∨ l.Lost b := by
  have hnot : a ∉ l.gone ++ l.held := fun hmem => ha (h.noted a hmem)
  simp only [Lost, drop, Finset.mem_insert]
  constructor
  · rintro ⟨rfl | hseen, hmem⟩
    · exact Or.inl rfl
    · exact Or.inr ⟨hseen, hmem⟩
  · rintro (rfl | ⟨hseen, hmem⟩)
    · exact ⟨Or.inl rfl, hnot⟩
    · exact ⟨Or.inr hseen, hmem⟩

end Ledger

end NdnFwd
