import NdnFwd.Core.Digits
import NdnFwd.Core.Paths
import NdnFwd.Core.Text

/-!
# Which frames are FEC-coded

Two environment variables hold the prefixes whose frames are never coded, and those whose frames
are coded whatever their size. Leading slashes of a path are trimmed; any other empty segment
stays a component, one that the names meant by the path do not have.
-/

namespace NdnFwd.Fec

open Text

/-- The entries of a comma-separated list, trimmed, without the blank ones. -/
def entries (text : String) : List (List Char) :=
  ((text.toList.splitOn ',').map trim).filter (· ≠ [])

/-- The components that an entry is read as. -/
def components (entry : List Char) : List Bytes :=
  ((entry.dropWhile (· = '/')).splitOn '/').map utf8

/-- The variables of the environment. -/
structure Env where
  /-- `NDN_RADIO_FEC_EXCLUDE`. -/
  exclude : Option String
  /-- `NDN_RADIO_FEC_MIN_BYTES`. -/
  minBytes : Option String
  /-- `NDN_RADIO_FEC_INCLUDE`. -/
  included : Option String

namespace Env

variable (env : Env)

/-- The entries of the exclude list. -/
def excludeEntries : List (List Char) :=
  entries (env.exclude.getD "/muas/v2/group,/muas/v2/sysgen")

/-- The entries of the include list. -/
def includeEntries : List (List Char) := entries (env.included.getD "")

/-- `fec_exclude`. -/
def fecExclude : List (List Bytes) := env.excludeEntries.map components

/-- `fec_min_bytes`. -/
def fecMinBytes : Nat := (env.minBytes.bind fun s => Digits.parse 64 (asBytes s)).getD 512

/-- `fec_include`. -/
def fecInclude : List (List Bytes) := env.includeEntries.map components

end Env

/-- What the closure reads of a frame. -/
structure Frame where
  /-- The components that `peek_lp_name` returns. -/
  peeked : Option (List Bytes)
  /-- `wire.len()`. -/
  len : Nat
  deriving DecidableEq, Repr

/-- `matches`. -/
def matchesSet (set : List (List Bytes)) (name : List Bytes) : Bool :=
  set.any fun pre => decide (pre.length ≤ name.length) && (pre.zip name).all fun x => x.1 = x.2

/-- The eligibility closure. -/
def eligible (env : Env) (frame : Frame) : Bool :=
  match frame.peeked with
  | some name =>
    if matchesSet env.fecExclude name then false
    else decide (env.fecMinBytes ≤ frame.len) || matchesSet env.fecInclude name
  | none => false

section Meaning

/-- The non-empty segments of an entry. -/
def segments (entry : List Char) : List Bytes :=
  ((entry.splitOn '/').filter (· ≠ [])).map utf8

/-- What the lists are to mean: only the non-empty segments of a path count. -/
def Eligible (env : Env) (frame : Frame) : Prop :=
  ∃ name, frame.peeked = some name ∧ ¬Paths.Under (env.excludeEntries.map segments) name ∧
    (env.fecMinBytes ≤ frame.len ∨ Paths.Under (env.includeEntries.map segments) name)

/-- The closure follows that meaning, for every size threshold and every frame. -/
def EverySpelling (exclude included : Option String) : Prop :=
  ∀ minBytes frame, eligible ⟨exclude, minBytes, included⟩ frame = true ↔
    Eligible ⟨exclude, minBytes, included⟩ frame

end Meaning

variable {env : Env} {frame : Frame}

/-- Comparing the components in pairs is the test for a prefix. -/
theorem pairwise_iff {pre name : List Bytes} :
    (decide (pre.length ≤ name.length) && (pre.zip name).all fun x => x.1 = x.2) = true ↔
      pre <+: name := by
  induction pre generalizing name with
  | nil => simp
  | cons c pre ih =>
    cases name with
    | nil => simp
    | cons d name =>
      rw [List.cons_prefix_cons, ← ih]
      simp only [List.length_cons, Nat.add_le_add_iff_right, List.zip_cons_cons, List.all_cons,
        Bool.and_eq_true, decide_eq_true_eq]
      exact and_left_comm

private theorem matchesSet_iff {set : List (List Bytes)} {name : List Bytes} :
    matchesSet set name = true ↔ Paths.Under set name := by
  simp only [matchesSet, List.any_eq_true, pairwise_iff, Paths.Under]

/-- Which frames the closure takes. -/
theorem eligible_iff : eligible env frame = true ↔ ∃ name, frame.peeked = some name ∧
    ¬Paths.Under env.fecExclude name ∧
      (env.fecMinBytes ≤ frame.len ∨ Paths.Under env.fecInclude name) := by
  rw [eligible]
  cases frame.peeked with
  | none => simp
  | some name =>
    simp only [← matchesSet_iff, Option.some.injEq, exists_eq_left']
    split_ifs with h <;> simp [h]

/-- Leading slashes only make empty segments. -/
theorem filter_splitOn_dropWhile (entry : List Char) :
    ((entry.dropWhile (· = '/')).splitOn '/').filter (· ≠ []) =
      (entry.splitOn '/').filter (· ≠ []) := by
  induction entry with
  | nil => rfl
  | cons c entry ih =>
    by_cases hc : c = '/'
    · subst hc
      rw [List.dropWhile_cons_of_pos (by simp), ih, List.splitOn_cons_eq_if_modifyHead]
      simp
    · rw [List.dropWhile_cons_of_neg (by simpa using hc)]

/-- What an entry means is what it is read as, without the empty components. -/
theorem segments_eq (entry : List Char) : segments entry = Paths.solid (components entry) := by
  rw [segments, ← filter_splitOn_dropWhile, components, Paths.solid, List.filter_map]
  congr 2
  ext text
  simp [utf8_eq_nil]

/-- What the lists mean, in the terms of the components. -/
theorem meaning_iff : Eligible env frame ↔ ∃ name, frame.peeked = some name ∧
    ¬Paths.Under (env.fecExclude.map Paths.solid) name ∧
      (env.fecMinBytes ≤ frame.len ∨ Paths.Under (env.fecInclude.map Paths.solid) name) := by
  have hmap : ∀ es : List (List Char), es.map segments = (es.map components).map Paths.solid := by
    intro es
    rw [List.map_map]
    exact List.map_congr_left fun e _ => segments_eq e
  rw [Eligible, hmap, hmap, Env.fecExclude, Env.fecInclude]

/-- The frames of one name and any size, under a threshold that all or none of them reaches. -/
theorem everySpelling_iff_under {exclude included : Option String} :
    EverySpelling exclude included ↔
      (∀ name, Paths.Under (Env.fecExclude ⟨exclude, none, included⟩) name ↔
        Paths.Under ((Env.fecExclude ⟨exclude, none, included⟩).map Paths.solid) name) ∧
      ∀ name, ¬Paths.Under ((Env.fecExclude ⟨exclude, none, included⟩).map Paths.solid) name →
        (Paths.Under (Env.fecInclude ⟨exclude, none, included⟩) name ↔
          Paths.Under ((Env.fecInclude ⟨exclude, none, included⟩).map Paths.solid) name) := by
  constructor
  · intro h
    have hexclude : ∀ name, Paths.Under (Env.fecExclude ⟨exclude, none, included⟩) name ↔
        Paths.Under ((Env.fecExclude ⟨exclude, none, included⟩).map Paths.solid) name := by
      intro name
      have hzero := h (some "0") ⟨some name, 0⟩
      rw [eligible_iff, meaning_iff] at hzero
      have hmin : ∀ len, Env.fecMinBytes ⟨exclude, some "0", included⟩ ≤ len := Nat.zero_le
      simp only [Option.some.injEq, exists_eq_left', hmin, true_or, and_true] at hzero
      exact not_iff_not.mp hzero
    refine ⟨hexclude, fun name hnot => ?_⟩
    have hone := h (some "1") ⟨some name, 0⟩
    rw [eligible_iff, meaning_iff] at hone
    have hmin : ¬Env.fecMinBytes ⟨exclude, some "1", included⟩ ≤ 0 := Nat.not_succ_le_zero 0
    simp only [Option.some.injEq, exists_eq_left', hmin, false_or] at hone
    have hnot' := (not_congr (hexclude name)).mpr hnot
    exact ⟨fun hunder => (hone.mp ⟨hnot', hunder⟩).2, fun hunder => (hone.mpr ⟨hnot, hunder⟩).2⟩
  · rintro ⟨hexclude, hinclude⟩ minBytes frame
    rw [eligible_iff, meaning_iff]
    refine exists_congr fun name => and_congr_right fun _ => ?_
    refine (and_congr_left' (not_congr (hexclude name))).trans ?_
    exact and_congr_right fun hnot => or_congr_right (hinclude name hnot)

/-- The lists mean the same in every spelling exactly if every excluded path is covered, before its
first empty component, by an excluded path without one, and every included path by an included or
excluded path without one. -/
theorem everySpelling_iff (exclude included : Option String) :
    EverySpelling exclude included ↔
      (∀ p ∈ Env.fecExclude ⟨exclude, none, included⟩,
        Paths.Covered (Env.fecExclude ⟨exclude, none, included⟩) p) ∧
      ∀ p ∈ Env.fecInclude ⟨exclude, none, included⟩,
        Paths.Covered (Env.fecInclude ⟨exclude, none, included⟩ ++
          Env.fecExclude ⟨exclude, none, included⟩) p := by
  rw [everySpelling_iff_under]
  generalize Env.fecExclude ⟨exclude, none, included⟩ = xs
  generalize Env.fecInclude ⟨exclude, none, included⟩ = ys
  rw [Paths.under_solid_iff_covered]
  refine and_congr_right fun hxs => ?_
  have hsolid : ∀ z ∈ xs.map Paths.solid, [] ∉ z := by
    intro z hz
    obtain ⟨p, -, rfl⟩ := List.mem_map.mp hz
    exact Paths.nil_notMem_solid p
  rw [Paths.under_solid_iff hsolid]
  refine forall₂_congr fun p _ => ?_
  rw [Paths.covered_append, Paths.under_solid_lead_iff hxs]

section Samples

/-- The group with a slash after it. -/
def sampleExclude : Option String := some "/muas/v2/group/"

/-- Its frames are coded. -/
theorem sampleExclude_misses : ¬EverySpelling sampleExclude none := by
  intro h
  obtain ⟨name, hname, hnot, -⟩ :=
    (h none ⟨some (["muas", "v2", "group", "sync"].map asBytes), 600⟩).mp (by decide)
  cases hname
  exact hnot ⟨["muas", "v2", "group"].map asBytes, by decide, by decide⟩

end Samples

end NdnFwd.Fec
