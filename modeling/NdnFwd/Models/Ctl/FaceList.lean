import Mathlib.Algebra.GroupWithZero.Nat
import NdnFwd.Core.Glob

/-!
# The filters of a face list

`glob_match` scans a text by byte offsets, from the left, for the pieces of a pattern between its
stars. Every offset it slices at is the end of a piece it has found, so no slice panics, and what
is left of the text behind an offset is where the other pieces must fit.
-/

namespace NdnFwd.Ctl

section Text

/-- `str::len`. -/
def byteLen (s : List Char) : Nat := (s.map Char.utf8Size).sum

/-- `&s[pos..]`, which panics inside a character and behind the end. -/
def sliceFrom : List Char → Nat → Option (List Char)
  | s, 0 => some s
  | [], _ + 1 => none
  | c :: s, pos + 1 =>
    if c.utf8Size ≤ pos + 1 then sliceFrom s (pos + 1 - c.utf8Size) else none

/-- `str::find`. -/
def find (s piece : List Char) : Option Nat := (s.dropInfix? piece).map fun x => byteLen x.1

private theorem byteLen_append (s t : List Char) : byteLen (s ++ t) = byteLen s + byteLen t := by
  rw [byteLen, List.map_append, List.sum_append, byteLen, byteLen]

private theorem sliceFrom_zero (s : List Char) : sliceFrom s 0 = some s := by
  cases s <;> rfl

/-- Slicing at the end of a part of the text. -/
theorem sliceFrom_append (s t : List Char) : sliceFrom (s ++ t) (byteLen s) = some t := by
  induction s with
  | nil => exact sliceFrom_zero t
  | cons c s ih =>
    have hlen : byteLen (c :: s) = byteLen s + c.utf8Size := by simp [byteLen, Nat.add_comm]
    have hpos := c.utf8Size_pos
    obtain ⟨n, hn⟩ := Nat.exists_eq_succ_of_ne_zero (n := byteLen (c :: s)) (by omega)
    rw [List.cons_append, hn, sliceFrom, if_pos (by omega)]
    rwa [← Nat.succ_eq_add_one, ← hn, hlen, Nat.add_sub_cancel]

end Text

/-- `FaceStatus`, as far as the filters read it. -/
structure FaceStatus where
  uri : String
  localUri : String
  deriving DecidableEq, Repr

/-- The loop over the pieces between the first and the last one: the offset behind them, unless one
of them is not found. -/
def scan (s : List Char) : List (List Char) → Nat → Option (Option Nat)
  | [], pos => some (some pos)
  | piece :: pieces, pos =>
    if piece = [] then scan s pieces pos
    else do
      let tail ← sliceFrom s pos
      match find tail piece with
      | some idx => scan s pieces (pos + (idx + byteLen piece))
      | none => some none

/-- The check of the last piece. -/
def endsAt (s last : List Char) (pos : Nat) : Option Bool :=
  if last = [] then some true
  else do
    let tail ← sliceFrom s pos
    if last.isSuffixOf tail then
      if pos ≤ byteLen s then some (decide (byteLen last ≤ byteLen s - pos)) else none
    else some false

/-- The checks of all pieces, if there are two at least. -/
def matchPieces (s first : List Char) (middle : List (List Char)) (last : List Char) :
    Option Bool := do
  let head ← sliceFrom s 0
  if first.isPrefixOf head then
    match ← scan s middle (byteLen first) with
    | some pos => endsAt s last pos
    | none => some false
  else some false

/-- `glob_match`, `none` where it panics. -/
def globMatch (pattern s : String) : Option Bool :=
  match pattern.toList.splitOn '*' with
  | [] => none
  | [only] => some (decide (only = s.toList))
  | first :: second :: rest =>
    matchPieces s.toList first (second :: rest).dropLast
      ((second :: rest).getLast (List.cons_ne_nil _ _))

/-- `uri_matches_scheme`. -/
def uriMatchesScheme (f : FaceStatus) (want : String) : Bool :=
  let uri := if f.uri.isEmpty then f.localUri.toList else f.uri.toList
  let scheme := match uri.dropInfix? "://".toList with
    | some (before, _) => before
    | none => uri
  scheme = want.toList

section Filter

variable (scheme remote localGlob : Option String)

/-- A pattern that need not be given. -/
def globFilter (pat : Option String) (uri : String) : Option Bool :=
  match pat with
  | some pat => globMatch pat uri
  | none => some true

/-- Whether a face passes the filters. -/
def passes (f : FaceStatus) : Option Bool :=
  if scheme.all (uriMatchesScheme f) then do
    if ← globFilter remote f.uri then globFilter localGlob f.localUri else some false
  else some false

/-- `filter_face_list`. -/
def filterFaceList : List FaceStatus → Option (List FaceStatus)
  | [] => some []
  | f :: entries => do
    let keep ← passes scheme remote localGlob f
    let kept ← filterFaceList entries
    some (if keep then f :: kept else kept)

/-- The face has the scheme, and its URIs match the patterns. -/
structure Wanted (f : FaceStatus) : Prop where
  ofScheme : ∀ want ∈ scheme, uriMatchesScheme f want = true
  ofRemote : ∀ pat ∈ remote, Glob.Matches '*' pat.toList f.uri.toList
  ofLocal : ∀ pat ∈ localGlob, Glob.Matches '*' pat.toList f.localUri.toList

end Filter

section Scan

/-- What `find` finds in what is left of the text, and where it leaves off. -/
theorem find_tail (s done : List Char) {tail : List Char} (h : s = done ++ tail)
    (piece : List Char) :
    (find tail piece = none ∧ tail.dropInfix? piece = none) ∨
      ∃ before after, tail.dropInfix? piece = some (before, after) ∧
        find tail piece = some (byteLen before) ∧ s = done ++ before ++ piece ++ after ∧
        byteLen done + (byteLen before + byteLen piece) =
          byteLen (done ++ before ++ piece) := by
  rw [find]
  cases hfound : tail.dropInfix? piece with
  | none => exact Or.inl ⟨rfl, rfl⟩
  | some found =>
    obtain ⟨before, after⟩ := found
    obtain ⟨⟨piece', htail, hpiece⟩, -⟩ := List.dropInfix?_eq_some_iff.mp hfound
    obtain rfl := eq_of_beq hpiece
    refine Or.inr ⟨before, after, rfl, rfl, ?_, ?_⟩
    · rw [h, htail]
      simp only [List.append_assoc]
    · rw [byteLen_append, byteLen_append, Nat.add_assoc]

/-- The scan ends at some part of the text, behind which the last piece must end it, or at a piece
without a place. -/
theorem scan_spec (s : List Char) (pieces : List (List Char)) (done : List Char)
    {tail : List Char} (h : s = done ++ tail) :
    (scan s pieces (byteLen done) = some none ∧ ∀ last, ¬Glob.Fits (pieces ++ [last]) tail) ∨
      ∃ done' tail', scan s pieces (byteLen done) = some (some (byteLen done')) ∧
        s = done' ++ tail' ∧
        ∀ last, Glob.Fits (pieces ++ [last]) tail ↔ Glob.Fits [last] tail' := by
  induction pieces generalizing done tail with
  | nil => exact Or.inr ⟨done, tail, rfl, h, fun _ => Iff.rfl⟩
  | cons piece pieces ih =>
    have hne : ∀ last, pieces ++ [last] ≠ [] := fun last hnil => by simp at hnil
    by_cases hempty : piece = []
    · have hskip : scan s (piece :: pieces) (byteLen done) = scan s pieces (byteLen done) := by
        rw [scan, if_pos hempty]
      rw [hskip, hempty]
      simp only [List.cons_append, Glob.fits_nil_cons_iff (hne _)]
      exact ih done h
    · have hslice : sliceFrom s (byteLen done) = some tail := by rw [h, sliceFrom_append]
      rcases find_tail s done h piece with
        ⟨hfind, hnone⟩ | ⟨before, after, hfound, hfind, hs, hpos⟩
      · left
        refine ⟨?_, fun last => Glob.not_fits_of_absent hnone⟩
        simp [scan, hempty, hslice, hfind]
      · have hstep : scan s (piece :: pieces) (byteLen done) =
            scan s pieces (byteLen (done ++ before ++ piece)) := by
          rw [← hpos]
          simp [scan, hempty, hslice, hfind]
        rw [hstep]
        simp only [List.cons_append, Glob.fits_cons_iff_of_leftmost hfound (hne _)]
        exact ih (done ++ before ++ piece) hs

private theorem endsAt_spec (s done : List Char) {tail : List Char} (h : s = done ++ tail)
    (last : List Char) : ∃ b, endsAt s last (byteLen done) = some b ∧
      (b = true ↔ Glob.Fits [last] tail) := by
  rw [endsAt, Glob.fits_singleton_iff]
  by_cases hempty : last = []
  · rw [if_pos hempty, hempty]
    exact ⟨true, rfl, iff_of_true rfl (List.nil_suffix)⟩
  · have hlen : byteLen s = byteLen done + byteLen tail := by rw [h, byteLen_append]
    have hslice : sliceFrom s (byteLen done) = some tail := by rw [h, sliceFrom_append]
    rw [if_neg hempty, hslice, Option.bind_eq_bind, Option.bind_some]
    by_cases hsuffix : last <:+ tail
    · obtain ⟨t, ht⟩ := id hsuffix
      have htail : byteLen tail = byteLen t + byteLen last := by rw [← ht, byteLen_append]
      have hlast : byteLen last ≤ byteLen s - byteLen done := by omega
      rw [if_pos (List.isSuffixOf_iff_suffix.mpr hsuffix), if_pos (by omega)]
      exact ⟨_, rfl, iff_of_true (decide_eq_true hlast) hsuffix⟩
    · rw [if_neg fun hs => hsuffix (List.isSuffixOf_iff_suffix.mp hs)]
      exact ⟨false, rfl, iff_of_false Bool.false_ne_true hsuffix⟩

private theorem matchPieces_spec (s first : List Char) (middle : List (List Char))
    (last : List Char) :
    ∃ b, matchPieces s first middle last = some b ∧
      (b = true ↔ Glob.Anchored (first :: (middle ++ [last])) s) := by
  rw [matchPieces, sliceFrom_zero, Option.bind_eq_bind, Option.bind_some]
  by_cases hfirst : first <+: s
  · obtain ⟨tail, htail⟩ := id hfirst
    have hanchored : Glob.Anchored (first :: (middle ++ [last])) s ↔
        Glob.Fits (middle ++ [last]) tail := by
      constructor
      · rintro ⟨rest, hs, hfits⟩
        rwa [List.append_cancel_left (htail.trans hs)]
      · intro hfits
        exact ⟨tail, htail.symm, hfits⟩
    rw [if_pos (List.isPrefixOf_iff_prefix.mpr hfirst), hanchored]
    rcases scan_spec s middle first htail.symm with
      ⟨hscan, hnone⟩ | ⟨done, tail', hscan, hs, hfits⟩
    · rw [hscan]
      exact ⟨false, rfl, iff_of_false Bool.false_ne_true (hnone last)⟩
    · rw [hscan, hfits]
      exact endsAt_spec s done hs last
  · rw [if_neg fun h => hfirst (List.isPrefixOf_iff_prefix.mp h)]
    refine ⟨false, rfl, iff_of_false Bool.false_ne_true ?_⟩
    rintro ⟨rest, hs, -⟩
    exact hfirst ⟨rest, hs.symm⟩

/-- `glob_match` does not panic, and decides whether the text comes of the pattern. -/
theorem globMatch_spec (pattern s : String) : ∃ b, globMatch pattern s = some b ∧
    (b = true ↔ Glob.Matches '*' pattern.toList s.toList) := by
  rw [globMatch, Glob.matches_iff_anchored]
  generalize hsplit : pattern.toList.splitOn '*' = parts
  match parts with
  | [] => exact absurd hsplit (List.splitOn_ne_nil _ _)
  | [only] =>
    refine ⟨_, rfl, ?_⟩
    rw [decide_eq_true_eq]
    constructor
    · intro hs
      exact ⟨[], by rw [← hs, List.append_nil], rfl⟩
    · rintro ⟨rest, hs, rfl⟩
      rw [hs, List.append_nil]
  | first :: second :: rest =>
    have hspec := matchPieces_spec s.toList first (second :: rest).dropLast
      ((second :: rest).getLast (List.cons_ne_nil _ _))
    rwa [List.dropLast_append_getLast] at hspec

-- The last piece must not overlap what an earlier one has taken.
example : globMatch "ab*ba" "aba" = some false := by decide

end Scan

section Filters

private theorem globFilter_spec (pat : Option String) (uri : String) :
    ∃ b, globFilter pat uri = some b ∧
    (b = true ↔ ∀ p ∈ pat, Glob.Matches '*' p.toList uri.toList) := by
  cases pat with
  | none => exact ⟨true, rfl, by simp⟩
  | some p => simpa [globFilter] using globMatch_spec p uri

private theorem passes_spec (scheme remote localGlob : Option String) (f : FaceStatus) :
    ∃ b, passes scheme remote localGlob f = some b ∧
      (b = true ↔ Wanted scheme remote localGlob f) := by
  obtain ⟨r, hr, hremote⟩ := globFilter_spec remote f.uri
  obtain ⟨l, hl, hlocal⟩ := globFilter_spec localGlob f.localUri
  have hscheme : scheme.all (uriMatchesScheme f) = true ↔
      ∀ want ∈ scheme, uriMatchesScheme f want = true := by
    cases scheme <;> simp
  rw [passes, hr, hl, Option.bind_eq_bind, Option.bind_some]
  by_cases hs : scheme.all (uriMatchesScheme f) = true
  · rw [if_pos hs]
    cases r with
    | false =>
      refine ⟨false, rfl, iff_of_false Bool.false_ne_true fun h => ?_⟩
      exact absurd (hremote.mpr h.ofRemote) Bool.false_ne_true
    | true =>
      refine ⟨l, rfl, hlocal.trans ?_⟩
      exact ⟨fun h => ⟨hscheme.mp hs, hremote.mp rfl, h⟩, fun h => h.ofLocal⟩
  · rw [if_neg hs]
    exact ⟨false, rfl, iff_of_false Bool.false_ne_true fun h => hs (hscheme.mpr h.ofScheme)⟩

/-- The filters keep the faces that are wanted, in their order. -/
theorem filterFaceList_spec (scheme remote localGlob : Option String)
    (entries : List FaceStatus) : ∃ keep : FaceStatus → Bool,
      (∀ f, keep f = true ↔ Wanted scheme remote localGlob f) ∧
        filterFaceList scheme remote localGlob entries = some (entries.filter keep) := by
  choose keep hpasses hkeep using passes_spec scheme remote localGlob
  refine ⟨keep, hkeep, ?_⟩
  induction entries with
  | nil => rfl
  | cons f entries ih =>
    rw [filterFaceList, hpasses, ih, List.filter_cons]
    rfl

/-- `glob_match` decides what a pattern means, and a face list is filtered by that meaning. -/
theorem globMatch_correct :
    (∀ pattern s : String, ∃ b, globMatch pattern s = some b ∧
      (b = true ↔ Glob.Matches '*' pattern.toList s.toList)) ∧
    ∀ (scheme remote localGlob : Option String) (entries : List FaceStatus),
      ∃ keep : FaceStatus → Bool, (∀ f, keep f = true ↔ Wanted scheme remote localGlob f) ∧
        filterFaceList scheme remote localGlob entries = some (entries.filter keep) :=
  ⟨globMatch_spec, filterFaceList_spec⟩

end Filters

end NdnFwd.Ctl
