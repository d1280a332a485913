import Mathlib.Data.List.Basic

/-!
# Paths and their spelling

A path is a list of segments, and spelled with a separator before each of them. One spelling
begins with another exactly if the paths agree up to the last segment of the shorter one, and at
that place one segment begins with the other. The paths under a set of paths are those that begin
with one of the set. What that is may change when empty segments are left out, and does not where
every path of the set is covered before its first empty segment.
-/

namespace NdnFwd

namespace Paths

variable {α : Type*}

/-- The segments, each with a separator before it. -/
def spell (sep : α) (segments : List (List α)) : List α := segments.flatMap (sep :: ·)

section Spelling

variable {sep : α} {x y t u : List α} {xs ys : List (List α)}

private theorem spell_cons (sep : α) (x : List α) (xs : List (List α)) :
    spell sep (x :: xs) = sep :: (x ++ spell sep xs) := rfl

/-- Segments are spelled one after the other. -/
theorem spell_append (sep : α) (xs ys : List (List α)) :
    spell sep (xs ++ ys) = spell sep xs ++ spell sep ys := List.flatMap_append

private theorem head_spell (h : spell sep xs ≠ []) : ∃ t, spell sep xs = sep :: t := by
  cases xs with
  | nil => exact absurd rfl h
  | cons x xs => exact ⟨x ++ spell sep xs, rfl⟩

/-- A text without the separator reaches no further than the first segment. -/
theorem prefix_of_prefix_append (hx : sep ∉ x) (hu : u ≠ [] → ∃ u', u = sep :: u')
    (h : x <+: y ++ u) : x <+: y := by
  rcases List.prefix_or_prefix_of_prefix h (List.prefix_append y u) with hxy | ⟨w, rfl⟩
  · exact hxy
  · rw [List.prefix_append_right_inj] at h
    cases w with
    | nil => simp
    | cons a w =>
      obtain ⟨u', rfl⟩ := hu fun hnil => by simp [hnil] at h
      obtain ⟨rfl, -⟩ := List.cons_prefix_cons.mp h
      exact absurd (List.mem_append_right y (List.mem_cons_self ..)) hx

/-- Up to the separator, two texts that agree are the same. -/
theorem eq_of_append_prefix (hx : sep ∉ x) (hy : sep ∉ y) (hu : u ≠ [] → ∃ u', u = sep :: u')
    (h : x ++ sep :: t <+: y ++ u) : x = y ∧ sep :: t <+: u := by
  obtain ⟨w, rfl⟩ := prefix_of_prefix_append hx hu ((List.prefix_append x _).trans h)
  rw [List.append_assoc, List.prefix_append_right_inj] at h
  cases w with
  | nil => exact ⟨(List.append_nil x).symm, h⟩
  | cons a w =>
    obtain ⟨rfl, -⟩ := List.cons_prefix_cons.mp h
    exact absurd (List.mem_append_right x (List.mem_cons_self ..)) hy

/-- How one spelling begins with another. -/
theorem spell_prefix_iff (hxs : ∀ x ∈ xs, sep ∉ x) (hys : ∀ y ∈ ys, sep ∉ y) (hne : xs ≠ []) :
    spell sep xs <+: spell sep ys ↔
      ∃ init x y rest, xs = init ++ [x] ∧ ys = init ++ y :: rest ∧ x <+: y := by
  constructor
  · intro h
    induction xs generalizing ys with
    | nil => exact absurd rfl hne
    | cons x xs ih =>
      rw [List.forall_mem_cons] at hxs
      cases ys with
      | nil => exact absurd (List.prefix_nil.mp h) (List.cons_ne_nil _ _)
      | cons y ys =>
        rw [List.forall_mem_cons] at hys
        rw [spell_cons, spell_cons, List.prefix_cons_inj] at h
        cases xs with
        | nil =>
          rw [spell, List.flatMap_nil, List.append_nil] at h
          exact ⟨[], x, y, ys, rfl, rfl, prefix_of_prefix_append hxs.1 head_spell h⟩
        | cons x' xs =>
          rw [spell_cons] at h
          obtain ⟨rfl, hrest⟩ := eq_of_append_prefix hxs.1 hys.1 head_spell h
          obtain ⟨init, x'', y', rest, hx'', rfl, hpre⟩ :=
            ih hxs.2 hys.2 (List.cons_ne_nil _ _) hrest
          exact ⟨x :: init, x'', y', rest, by rw [hx'', List.cons_append], rfl, hpre⟩
  · rintro ⟨init, x, y, rest, rfl, rfl, hpre⟩
    rw [spell_append, spell_append, List.prefix_append_right_inj, spell_cons, spell_cons,
      List.prefix_cons_inj, spell, List.flatMap_nil, List.append_nil]
    exact hpre.trans (List.prefix_append _ _)

/-- A spelling determines the path. -/
theorem spell_inj (hxs : ∀ x ∈ xs, sep ∉ x) (hys : ∀ y ∈ ys, sep ∉ y)
    (h : spell sep xs = spell sep ys) : xs = ys := by
  induction xs generalizing ys with
  | nil =>
    cases ys with
    | nil => rfl
    | cons y ys => exact absurd h (List.cons_ne_nil _ _).symm
  | cons x xs ih =>
    cases ys with
    | nil => exact absurd h (List.cons_ne_nil _ _)
    | cons y ys =>
      rw [List.forall_mem_cons] at hxs hys
      rw [spell_cons, spell_cons, List.cons.injEq, and_iff_right rfl] at h
      have hxy : x <+: y := prefix_of_prefix_append hxs.1 head_spell (h ▸ List.prefix_append x _)
      have hyx : y <+: x := prefix_of_prefix_append hys.1 head_spell (h ▸ List.prefix_append y _)
      obtain rfl := hxy.eq_of_length (Nat.le_antisymm hxy.length_le hyx.length_le)
      rw [ih hxs.2 hys.2 (List.append_cancel_left h)]

end Spelling

section Under

variable {xs : List (List α)}

/-- The path begins with one of the set. -/
def Under (paths : List (List α)) (path : List α) : Prop := ∃ p ∈ paths, p <+: path

/-- A longer path is under whatever the shorter one is under. -/
theorem Under.mono {path path' : List α} (h : Under xs path) (hp : path <+: path') :
    Under xs path' := by
  obtain ⟨p, hp', hpre⟩ := h
  exact ⟨p, hp', hpre.trans hp⟩

end Under

section Solid

variable {xs zs : List (List (List α))} {p q : List (List α)}

/-- The segments that are not empty. -/
def solid (p : List (List α)) : List (List α) := p.filter (· ≠ [])

/-- The segments before the first empty one. -/
def lead (p : List (List α)) : List (List α) := p.takeWhile (· ≠ [])

/-- A path of the set that has no empty segment is a beginning of this one's lead. -/
def Covered (xs : List (List (List α))) (p : List (List α)) : Prop :=
  ∃ q ∈ xs, [] ∉ q ∧ q <+: lead p

private theorem solid_of_notMem (h : [] ∉ p) : solid p = p :=
  List.filter_eq_self.mpr fun _ hx => decide_eq_true (ne_of_mem_of_not_mem hx h)

/-- A solid path has no empty segment. -/
theorem nil_notMem_solid (p : List (List α)) : [] ∉ solid p := fun h =>
  of_decide_eq_true (List.mem_filter.mp h).2 rfl

private theorem lead_isPrefix (p : List (List α)) : lead p <+: p := List.takeWhile_prefix _

private theorem lead_isPrefix_solid (p : List (List α)) : lead p <+: solid p := by
  induction p with
  | nil => exact List.prefix_rfl
  | cons x p ih =>
    by_cases hx : x = []
    · simp [lead, hx]
    · simpa [lead, solid, hx] using ih

/-- A beginning without empty segments is one of the lead. -/
theorem prefix_lead (h : q <+: p) (hq : [] ∉ q) : q <+: lead p := by
  obtain ⟨t, rfl⟩ := h
  rw [lead, List.takeWhile_append_of_pos fun x hx => decide_eq_true (ne_of_mem_of_not_mem hx hq)]
  exact List.prefix_append _ _

/-- A covered path is under an entry as far as it goes. -/
theorem Covered.under (h : Covered xs p) : Under xs (lead p) := by
  obtain ⟨q, hq, -, hpre⟩ := h
  exact ⟨q, hq, hpre⟩

private theorem Covered.under_solid (h : Covered xs p) : Under (xs.map solid) (lead p) := by
  obtain ⟨q, hq, hnil, hpre⟩ := h
  exact ⟨solid q, List.mem_map_of_mem hq, (solid_of_notMem hnil).symm ▸ hpre⟩

/-- A path is covered by either list. -/
theorem covered_append {ys : List (List (List α))} :
    Covered (xs ++ ys) p ↔ Covered xs p ∨ Covered ys p := by
  simp only [Covered, List.mem_append, or_and_right, exists_or]

/-- In a set that covers its own paths. -/
theorem under_solid_lead_iff (h : ∀ p ∈ xs, Covered xs p) :
    Under (xs.map solid) (lead p) ↔ Covered xs p := by
  refine ⟨?_, Covered.under_solid⟩
  rintro ⟨_, hmem, hpre⟩
  obtain ⟨q, hq, rfl⟩ := List.mem_map.mp hmem
  obtain ⟨r, hr, hnil, hlead⟩ := h q hq
  exact ⟨r, hr, hnil, (hlead.trans (lead_isPrefix_solid q)).trans hpre⟩

/-- Up to what is under a third set without empty segments, the empty segments of a set make no
difference exactly if the paths of the set, or else the third set, cover each of them. -/
theorem under_solid_iff (hzs : ∀ z ∈ zs, [] ∉ z) :
    (∀ path, ¬Under zs path → (Under xs path ↔ Under (xs.map solid) path)) ↔
      ∀ p ∈ xs, Covered xs p ∨ Under zs (lead p) := by
  constructor
  · intro h p hp
    by_contra hnone
    rw [not_or] at hnone
    have hzp : ¬Under zs p := by
      rintro ⟨z, hz, hpre⟩
      exact hnone.2 ⟨z, hz, prefix_lead hpre (hzs z hz)⟩
    -- some path of the set is, without its empty segments, a beginning of this one
    obtain ⟨_, hmem, hpre⟩ := (h p hzp).mp ⟨p, hp, List.prefix_rfl⟩
    obtain ⟨q, hq, rfl⟩ := List.mem_map.mp hmem
    have hlead := prefix_lead hpre (nil_notMem_solid q)
    have hzq : ¬Under zs (solid q) := fun hz => hnone.2 (hz.mono hlead)
    -- and one as it is a beginning of that
    obtain ⟨r, hr, hrq⟩ := (h _ hzq).mpr ⟨solid q, hmem, List.prefix_rfl⟩
    exact hnone.1 ⟨r, hr, fun hnil => nil_notMem_solid q (hrq.subset hnil), hrq.trans hlead⟩
  · intro h path hz
    have hcovered : ∀ p ∈ xs, lead p <+: path → Covered xs p := fun p hp hlead =>
      (h p hp).resolve_right fun hzp => hz (hzp.mono hlead)
    constructor
    · rintro ⟨p, hp, hpre⟩
      have hlead := (lead_isPrefix p).trans hpre
      exact (hcovered p hp hlead).under_solid.mono hlead
    · rintro ⟨_, hmem, hpre⟩
      obtain ⟨p, hp, rfl⟩ := List.mem_map.mp hmem
      have hlead := (lead_isPrefix_solid p).trans hpre
      exact (hcovered p hp hlead).under.mono hlead

/-- The empty segments of a set make no difference at all exactly if the set covers its own
paths. -/
theorem under_solid_iff_covered (xs : List (List (List α))) :
    (∀ path, Under xs path ↔ Under (xs.map solid) path) ↔ ∀ p ∈ xs, Covered xs p := by
  have hnone : ∀ z ∈ ([] : List (List (List α))), [] ∉ z := fun z hz => by cases hz
  have hiff := @under_solid_iff _ xs [] hnone
  simpa [Under] using hiff

end Solid

end Paths

end NdnFwd
