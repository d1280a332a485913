import Mathlib.Data.List.DropRight
import NdnFwd.Core.Utf8

/-!
# Reading a line

A line ends with a line feed, or with the input. Trimmed at its end it has no line feed and does not
end in a carriage return, and every text of that kind can be read back from a line.
-/

namespace NdnFwd.Lines

/-- `BufRead::read_line`: the line with its end, and what comes after it. -/
def readLine (bs : Bytes) : Bytes × Bytes :=
  (bs.takeWhile (· ≠ 0x0A) ++ (bs.dropWhile (· ≠ 0x0A)).take 1, (bs.dropWhile (· ≠ 0x0A)).drop 1)

/-- `trim_end_matches(['\r', '\n'])`. -/
def trimEnd (line : Bytes) : Bytes := line.rdropWhile fun b => b = 0x0D ∨ b = 0x0A

/-- What can be typed on a line. -/
structure Typable (text : Bytes) : Prop where
  noFeed : 0x0A ∉ text
  noReturn : text.getLast? ≠ some 0x0D

variable {text rest : Bytes}

/-- The end of the line is trimmed away. -/
theorem trimEnd_readLine (bs : Bytes) :
    trimEnd (readLine bs).1 = trimEnd (bs.takeWhile (· ≠ 0x0A)) := by
  rw [readLine, trimEnd, trimEnd]
  cases hrest : bs.dropWhile (· ≠ 0x0A) with
  | nil => rw [List.take_nil, List.append_nil]
  | cons b rest =>
    have hb : b = 0x0A := by
      have hhead := List.head?_dropWhile_not (· ≠ (0x0A : UInt8)) bs
      rw [hrest] at hhead
      simpa using hhead
    rw [List.take_succ_cons, List.take_zero, List.rdropWhile_concat_pos _ _ _ (by simp [hb])]

private theorem trimEnd_eq_self (h : Typable text) : trimEnd text = text := by
  apply List.rdropWhile_eq_self_iff.mpr
  intro hne hlast
  rcases of_decide_eq_true hlast with hreturn | hfeed
  · exact h.noReturn ((List.getLast?_eq_some_getLast hne).trans (congrArg some hreturn))
  · exact h.noFeed (hfeed ▸ List.getLast_mem hne)

/-- Whatever is read can be typed. -/
theorem typable_trimEnd_readLine (bs : Bytes) : Typable (trimEnd (readLine bs).1) := by
  rw [trimEnd_readLine]
  constructor
  · intro hmem
    have htake := List.mem_takeWhile_imp ((List.rdropWhile_prefix _ _).subset hmem)
    exact absurd rfl (of_decide_eq_true htake)
  · intro hlast
    have hne : trimEnd (bs.takeWhile (· ≠ 0x0A)) ≠ [] := by
      intro hnil
      rw [hnil] at hlast
      cases hlast
    rw [List.getLast?_eq_some_getLast hne] at hlast
    apply List.rdropWhile_last_not _ _ hne
    exact decide_eq_true (Or.inl (Option.some.inj hlast))

/-- The line of a text that can be typed. -/
theorem readLine_of_typable {text : Bytes} (h : Typable text) (rest : Bytes) :
    readLine (text ++ 0x0A :: rest) = (text ++ [0x0A], rest) := by
  have hpos : ∀ b ∈ text, decide (b ≠ 0x0A) = true := fun b hb =>
    decide_eq_true fun hfeed => h.noFeed (hfeed ▸ hb)
  rw [readLine, List.takeWhile_append_of_pos hpos, List.dropWhile_append_of_pos hpos]
  simp

/-- A text is read back from a line exactly if it can be typed. -/
theorem trimEnd_readLine_iff (text rest : Bytes) :
    trimEnd (readLine (text ++ 0x0A :: rest)).1 = text ↔ Typable text := by
  constructor
  · intro h
    rw [← h]
    exact typable_trimEnd_readLine _
  · intro h
    rw [readLine_of_typable h, trimEnd, List.rdropWhile_concat_pos _ _ _ (by simp)]
    exact trimEnd_eq_self h

/-- A line feed may follow a text. -/
theorem isText_feed {text : Bytes} (h : Utf8.isText text = true) :
    Utf8.isText (text ++ [0x0A]) = true := by
  have haccepts : ∀ q, Utf8.accepts q text = true → Utf8.accepts q (text ++ [0x0A]) = true := by
    clear h
    induction text with
    | nil =>
      intro q hq
      obtain rfl : q = .start := of_decide_eq_true hq
      rfl
    | cons b bs ih =>
      intro q hq
      rw [List.cons_append, Utf8.accepts]
      rw [Utf8.accepts] at hq
      cases hstep : Utf8.step q b with
      | none =>
        rw [hstep] at hq
        cases hq
      | some q' =>
        rw [hstep] at hq
        exact ih q' hq
  exact haccepts .start h

end NdnFwd.Lines
