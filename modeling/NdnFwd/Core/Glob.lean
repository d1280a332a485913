import Mathlib.Data.List.Basic
import Mathlib.Order.Basic
import Mathlib.Order.Nat

/-!
# Patterns with stars

A pattern is matched by what comes of it when every star is replaced by some text. Split at its
stars, it is a list of pieces that must follow one another in the text, with gaps of any length
between them, the first at the beginning and the last at the end. Placing each piece as far to the
left as it goes loses nothing: what is left behind it is as long as it can be.
-/

namespace NdnFwd

namespace Glob

variable {α : Type*} {star : α} {p pattern s before after : List α} {ps : List (List α)}

/-- The text comes of the pattern by replacing every star. -/
inductive Matches (star : α) : List α → List α → Prop
  | nil : Matches star [] []
  | letter {a : α} {p s : List α} : a ≠ star → Matches star p s → Matches star (a :: p) (a :: s)
  | gap {p s : List α} (t : List α) : Matches star p s → Matches star (star :: p) (t ++ s)

/-- The pieces follow one another, each after some gap, up to the end. -/
def Fits : List (List α) → List α → Prop
  | [], s => s = []
  | p :: ps, s => ∃ t rest, s = t ++ (p ++ rest) ∧ Fits ps rest

/-- So they do, with no gap before the first one. -/
def Anchored : List (List α) → List α → Prop
  | [], _ => False
  | p :: ps, s => ∃ rest, s = p ++ rest ∧ Fits ps rest

private theorem matches_star_iff :
    Matches star (star :: pattern) s ↔ ∃ t rest, s = t ++ rest ∧ Matches star pattern rest := by
  constructor
  · intro h
    cases h with
    | letter hne _ => exact absurd rfl hne
    | gap t hrest => exact ⟨t, _, rfl, hrest⟩
  · rintro ⟨t, rest, rfl, hrest⟩
    exact .gap t hrest

private theorem matches_letter_iff {a : α} (ha : a ≠ star) :
    Matches star (a :: pattern) s ↔ ∃ rest, s = a :: rest ∧ Matches star pattern rest := by
  constructor
  · intro h
    cases h with
    | letter _ hrest => exact ⟨_, rfl, hrest⟩
    | gap t _ => exact absurd rfl ha
  · rintro ⟨rest, rfl, hrest⟩
    exact .letter ha hrest

/-- A gap before a piece that may start anywhere. -/
theorem fits_iff_anchored (hne : ps ≠ []) :
    Fits ps s ↔ ∃ t rest, s = t ++ rest ∧ Anchored ps rest := by
  cases ps with
  | nil => exact absurd rfl hne
  | cons p ps =>
    constructor
    · rintro ⟨t, rest, rfl, hrest⟩
      exact ⟨t, _, rfl, rest, rfl, hrest⟩
    · rintro ⟨t, _, rfl, rest, rfl, hrest⟩
      exact ⟨t, rest, rfl, hrest⟩

/-- A text matches the pattern exactly if the pieces of the pattern fit into it. -/
theorem matches_iff_anchored [DecidableEq α] :
    Matches star pattern s ↔ Anchored (pattern.splitOn star) s := by
  induction pattern generalizing s with
  | nil =>
    constructor
    · rintro ⟨⟩
      exact ⟨[], rfl, rfl⟩
    · rintro ⟨rest, rfl, rfl⟩
      exact .nil
  | cons a pattern ih =>
    rw [List.splitOn_cons_eq_if_modifyHead]
    have hne := List.splitOn_ne_nil star pattern
    by_cases ha : a = star
    · subst ha
      rw [if_pos BEq.rfl, matches_star_iff]
      simp only [ih]
      rw [← fits_iff_anchored hne]
      exact ⟨fun h => ⟨s, rfl, h⟩, by rintro ⟨_, rfl, h⟩; exact h⟩
    · rw [if_neg (by simpa using ha), matches_letter_iff ha]
      simp only [ih]
      obtain ⟨p, ps, hsplit⟩ := List.exists_cons_of_ne_nil hne
      rw [hsplit]
      constructor
      · rintro ⟨_, rfl, rest, rfl, hrest⟩
        exact ⟨rest, rfl, hrest⟩
      · rintro ⟨rest, rfl, hrest⟩
        exact ⟨_, rfl, rest, rfl, hrest⟩

section Greedy

/-- What fits into the end of a text fits into the text. -/
theorem Fits.append (h : Fits ps s) (hne : ps ≠ []) (t : List α) : Fits ps (t ++ s) := by
  rw [fits_iff_anchored hne] at h ⊢
  obtain ⟨t', rest, rfl, hrest⟩ := h
  exact ⟨t ++ t', rest, (List.append_assoc ..).symm, hrest⟩

/-- An empty piece fits everywhere. -/
theorem fits_nil_cons_iff (hne : ps ≠ []) : Fits ([] :: ps) s ↔ Fits ps s := by
  constructor
  · rintro ⟨t, rest, rfl, hrest⟩
    exact hrest.append hne t
  · intro h
    exact ⟨[], s, rfl, h⟩

/-- The last piece ends the text. -/
theorem fits_singleton_iff : Fits [p] s ↔ p <:+ s := by
  constructor
  · rintro ⟨t, _, rfl, rfl⟩
    exact ⟨t, by rw [List.append_nil]⟩
  · rintro ⟨t, rfl⟩
    exact ⟨t, [], by rw [List.append_nil], rfl⟩

variable [DecidableEq α]

/-- The leftmost place of a piece leaves the most behind it. -/
theorem fits_cons_iff_of_leftmost (h : s.dropInfix? p = some (before, after)) (hne : ps ≠ []) :
    Fits (p :: ps) s ↔ Fits ps after := by
  obtain ⟨⟨p', hs, hp⟩, hleast⟩ := List.dropInfix?_eq_some_iff.mp h
  obtain rfl := eq_of_beq hp
  constructor
  · rintro ⟨t, rest, ht, hrest⟩
    have hlen := hleast t p' rest (by rw [ht, List.append_assoc]) BEq.rfl
    have hrest' : rest <:+ s := ⟨t ++ p', by rw [ht, List.append_assoc]⟩
    have hafter : after <:+ s := ⟨before ++ p', hs.symm⟩
    have hle : rest.length ≤ after.length := by
      have hlength := congrArg List.length (hs.symm.trans ht)
      simp only [List.length_append] at hlength
      omega
    obtain ⟨t', rfl⟩ := List.suffix_of_suffix_length_le hrest' hafter hle
    exact hrest.append hne t'
  · intro hafter
    exact ⟨before, after, by rw [hs, List.append_assoc], hafter⟩

/-- A piece that has a place has a leftmost one. -/
theorem exists_leftmost {t rest : List α} (h : s = t ++ (p ++ rest)) :
    ∃ before after, s.dropInfix? p = some (before, after) := by
  have hplace : ∃ n t rest, s = t ++ (p ++ rest) ∧ t.length = n := ⟨_, t, rest, h, rfl⟩
  classical
  obtain ⟨before, after, hs, hlen⟩ := Nat.find_spec hplace
  refine ⟨before, after, List.dropInfix?_eq_some_iff.mpr ⟨⟨p, ?_, BEq.rfl⟩, ?_⟩⟩
  · rw [hs, List.append_assoc]
  · intro t' p' rest' hs' hp
    obtain rfl := eq_of_beq hp
    rw [hlen]
    exact Nat.find_min' hplace ⟨t', rest', by rw [hs', List.append_assoc], rfl⟩

/-- A piece that does not occur does not fit. -/
theorem not_fits_of_absent (h : s.dropInfix? p = none) : ¬Fits (p :: ps) s := by
  rintro ⟨t, rest, hs, -⟩
  obtain ⟨before, after, hsome⟩ := exists_leftmost hs
  rw [h] at hsome
  cases hsome

end Greedy

end Glob

end NdnFwd
