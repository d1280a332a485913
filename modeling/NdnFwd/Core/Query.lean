import Mathlib.Data.List.Basic

/-!
# A path with parameters

A text is read as a path and a list of parameters. The first question mark ends the path,
and every ampersand after it ends a parameter. Reading undoes writing, as long as neither
mark stands where it would be taken for a separator.
-/

namespace NdnFwd

namespace Query

variable {α : Type*} [DecidableEq α]

/-- Split a text at the first of its marks. -/
def splitOnce (mark : α) (text : List α) : Option (List α × List α) :=
  if mark ∈ text then some (text.takeWhile (· ≠ mark), (text.dropWhile (· ≠ mark)).tail) else none

private theorem splitOnce_of_notMem {mark : α} {text : List α} (h : mark ∉ text) :
    splitOnce mark text = none := if_neg h

/-- A text is split at the first mark. -/
theorem splitOnce_append {mark : α} {before : List α} (h : mark ∉ before) (after : List α) :
    splitOnce mark (before ++ mark :: after) = some (before, after) := by
  have hall : ∀ a ∈ before, decide (a ≠ mark) = true :=
    fun a ha => decide_eq_true fun he => h (he ▸ ha)
  have hmem : mark ∈ before ++ mark :: after := List.mem_append_right _ (List.mem_cons_self ..)
  rw [splitOnce, if_pos hmem, List.takeWhile_append_of_pos hall, List.dropWhile_append_of_pos hall]
  simp

/-- A text with parameters; the question mark is left out when there are none. -/
def render (question amp : α) (path : List α) : List (List α) → List α
  | [] => path
  | p :: params => path ++ question :: [amp].intercalate (p :: params)

/-- The path of a text, and its parameters. -/
def parse (question amp : α) (text : List α) : List α × List (List α) :=
  match splitOnce question text with
  | some (path, query) => (path, query.splitOn amp)
  | none => (text, [])

/-- What is written can be read. -/
theorem parse_render {question amp : α} {path : List α} {params : List (List α)}
    (hpath : question ∉ path) (hparams : ∀ p ∈ params, amp ∉ p) :
    parse question amp (render question amp path params) = (path, params) := by
  cases params with
  | nil => rw [render, parse, splitOnce_of_notMem hpath]
  | cons p params =>
    rw [render, parse, splitOnce_append hpath]
    simp only [List.splitOn_intercalate amp hparams (List.cons_ne_nil p params)]

end Query

end NdnFwd
