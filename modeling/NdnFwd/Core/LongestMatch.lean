import Mathlib.Data.List.MinMax
import Mathlib.Data.List.Nodup

/-!
# Longest stored prefix

A table keyed by lists is searched for the longest key that begins a given list. The match
is a relation between table and list; the search finds it, if every key is stored once.
-/

namespace NdnFwd

variable {α β : Type*} {entries : List (List α × β)} {xs : List α} {d : Nat} {b : β}

/-- The first `d` elements are a key with value `b`, and no longer key begins the list. -/
structure IsLongest (entries : List (List α × β)) (xs : List α) (d : Nat) (b : β) : Prop where
  le : d ≤ xs.length
  stored : (xs.take d, b) ∈ entries
  longest : ∀ e ∈ entries, e.1 <+: xs → e.1.length ≤ d

namespace IsLongest

/-- The longest match is as long as its depth. -/
theorem length_take (h : IsLongest entries xs d b) : (xs.take d).length = d := by
  rw [List.length_take, Nat.min_eq_left h.le]

/-- The key of a match. -/
theorem of_prefix {p : List α} (hmem : (p, b) ∈ entries) (hp : p <+: xs)
    (hlongest : ∀ e ∈ entries, e.1 <+: xs → e.1.length ≤ p.length) :
    IsLongest entries xs p.length b where
  le := hp.length_le
  stored := by rwa [← List.prefix_iff_eq_take.mp hp]
  longest := hlongest

end IsLongest

section Search

variable [DecidableEq α]

/-- Search the table. -/
def longestMatch (entries : List (List α × β)) (xs : List α) : Option (Nat × β) :=
  ((entries.filter fun e => e.1.isPrefixOf xs).argmax fun e => e.1.length).map fun e =>
    (e.1.length, e.2)

/-- The search finds the match, and nothing else. -/
theorem longestMatch_eq_some_iff (hnodup : (entries.map Prod.fst).Nodup) :
    longestMatch entries xs = some (d, b) ↔ IsLongest entries xs d b := by
  have hmem : ∀ e, e ∈ (entries.filter fun e => e.1.isPrefixOf xs) ↔ e ∈ entries ∧ e.1 <+: xs := by
    intro e
    rw [List.mem_filter, List.isPrefixOf_iff_prefix]
  rw [longestMatch, Option.map_eq_some_iff]
  constructor
  · rintro ⟨⟨p, b'⟩, hbest, heq⟩
    obtain ⟨rfl, rfl⟩ := Prod.mk.inj heq
    obtain ⟨hin, hp⟩ := (hmem _).mp (List.argmax_mem hbest)
    refine IsLongest.of_prefix hin hp fun e he hpre => ?_
    have hle := List.le_of_mem_argmax ((hmem e).mpr ⟨he, hpre⟩) hbest
    exact hle
  · intro h
    have hhere := (hmem _).mpr ⟨h.stored, List.take_prefix d xs⟩
    cases hbest : (entries.filter fun e => e.1.isPrefixOf xs).argmax fun e => e.1.length with
    | none =>
      rw [List.argmax_eq_none] at hbest
      rw [hbest] at hhere
      cases hhere
    | some e =>
      obtain ⟨hin, hp⟩ := (hmem e).mp (List.argmax_mem hbest)
      have hle := List.le_of_mem_argmax hhere hbest
      rw [h.length_take] at hle
      have hlen : e.1.length = d := Nat.le_antisymm (h.longest e hin hp) hle
      have hkey : e.1 = xs.take d := by rw [← hlen]; exact List.prefix_iff_eq_take.mp hp
      have hval := List.inj_on_of_nodup_map hnodup hin h.stored hkey
      exact ⟨e, rfl, by rw [hlen, hval]⟩

end Search

end NdnFwd
