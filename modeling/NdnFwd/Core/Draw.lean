import Mathlib.Data.List.Nodup
import Mathlib.Logic.Function.Basic

/-!
# Identifiers drawn in passing

Several pieces of code draw identifiers from one counter, one after the other, and some of what
they draw is never used. What is used has ascending places, so no identifier is used twice.
-/

namespace NdnFwd

variable {ι : Type*} (alloc : Nat → ι)

/-- The identifiers were drawn in this order while the counter went from `lo` to `hi`. -/
structure Drawn (lo hi : Nat) (ids : List ι) : Prop where
  le : lo ≤ hi
  places : ∃ ns : List Nat, ids = ns.map alloc ∧ ns.Pairwise (· < ·) ∧ ∀ n ∈ ns, lo ≤ n ∧ n < hi

namespace Drawn

variable {alloc} {lo mid hi : Nat} {as bs : List ι}

/-- Nothing is drawn. -/
theorem nil (h : lo ≤ hi) : Drawn alloc lo hi [] :=
  ⟨h, [], rfl, List.Pairwise.nil, fun _ hn => absurd hn List.not_mem_nil⟩

/-- One is drawn. -/
theorem single (lo : Nat) : Drawn alloc lo (lo + 1) [alloc lo] := by
  refine ⟨Nat.le_succ lo, [lo], rfl, List.pairwise_singleton .., fun n hn => ?_⟩
  obtain rfl := List.mem_singleton.mp hn
  exact ⟨Nat.le_refl n, Nat.lt_succ_self n⟩

/-- One piece of code after another. -/
theorem append (ha : Drawn alloc lo mid as) (hb : Drawn alloc mid hi bs) :
    Drawn alloc lo hi (as ++ bs) := by
  obtain ⟨hle, ns, rfl, hns, hin⟩ := ha
  obtain ⟨hle', ms, rfl, hms, hin'⟩ := hb
  refine ⟨Nat.le_trans hle hle', ns ++ ms, List.map_append.symm, ?_, fun n hn => ?_⟩
  · refine List.pairwise_append.mpr ⟨hns, hms, fun n hn m hm => ?_⟩
    exact Nat.lt_of_lt_of_le (hin n hn).2 (hin' m hm).1
  · rcases List.mem_append.mp hn with hn | hn
    · exact ⟨(hin n hn).1, Nat.lt_of_lt_of_le (hin n hn).2 hle'⟩
    · exact ⟨Nat.le_trans hle (hin' n hn).1, (hin' n hn).2⟩

/-- An identifier that is not used. -/
theorem skip (h : Drawn alloc (lo + 1) hi as) : Drawn alloc lo hi as :=
  (nil (Nat.le_succ lo)).append h

/-- One is drawn first. -/
theorem cons (h : Drawn alloc (lo + 1) hi as) : Drawn alloc lo hi (alloc lo :: as) :=
  (single lo).append h

/-- Whatever is drawn has a number in the range. -/
theorem place_of_mem (h : Drawn alloc lo hi as) {id : ι} (hid : id ∈ as) :
    ∃ n, lo ≤ n ∧ n < hi ∧ id = alloc n := by
  obtain ⟨-, ns, rfl, -, hin⟩ := h
  obtain ⟨n, hn, rfl⟩ := List.mem_map.mp hid
  exact ⟨n, (hin n hn).1, (hin n hn).2, rfl⟩

/-- Nothing is drawn twice. -/
theorem nodup (h : Drawn alloc lo hi as) (hinj : Function.Injective alloc) : as.Nodup := by
  obtain ⟨-, ns, rfl, hns, -⟩ := h
  exact List.Nodup.map hinj (hns.imp Nat.ne_of_lt)

/-- What is drawn later is new. -/
theorem disjoint (ha : Drawn alloc lo mid as) (hb : Drawn alloc mid hi bs)
    (hinj : Function.Injective alloc) {id : ι} (h : id ∈ as) : id ∉ bs := by
  intro h'
  obtain ⟨n, -, hn, rfl⟩ := ha.place_of_mem h
  obtain ⟨m, hm, -, heq⟩ := hb.place_of_mem h'
  have hnm := hinj heq
  omega

end Drawn

end NdnFwd
