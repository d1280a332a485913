import NdnFwd.Core.Machine

/-!
# What the latest step decides

Some steps of a machine bring a fact about, some put an end to it, and all others leave it as it is.
After a run the fact holds if no step has put an end to it since it was last brought about.
-/

namespace NdnFwd.Machine

variable {σ ι ο : Type*} {M : Machine σ ι ο} {Sets Clears : σ × ι → Prop}

/-- Brought about at some point of a run, with no end put to it afterwards. -/
def SetLast (M : Machine σ ι ο) (Sets Clears : σ × ι → Prop) (s : σ) (is : List ι) : Prop :=
  ∃ js i ks, is = js ++ i :: ks ∧ Sets (M.run s js, i) ∧
    ∀ v ∈ M.visits (M.run s (js ++ [i])) ks, ¬Clears v

private theorem not_setLast_nil (s : σ) : ¬M.SetLast Sets Clears s [] := by
  rintro ⟨js, i, ks, h, -⟩
  exact List.append_ne_nil_of_right_ne_nil js (List.cons_ne_nil i ks) h.symm

/-- The first step of a run, or a later one. -/
theorem setLast_cons (s : σ) (i : ι) (is : List ι) :
    M.SetLast Sets Clears s (i :: is) ↔
      (Sets (s, i) ∧ ∀ v ∈ M.visits (M.step s i).1 is, ¬Clears v) ∨
        M.SetLast Sets Clears (M.step s i).1 is := by
  constructor
  · rintro ⟨js, j, ks, h, hsets, hclears⟩
    cases js with
    | nil =>
      obtain ⟨rfl, rfl⟩ := List.cons.inj h
      exact Or.inl ⟨hsets, hclears⟩
    | cons k js =>
      obtain ⟨rfl, rfl⟩ := List.cons.inj h
      exact Or.inr ⟨js, j, ks, rfl, hsets, hclears⟩
  · rintro (⟨hsets, hclears⟩ | ⟨js, j, ks, rfl, hsets, hclears⟩)
    · exact ⟨[], i, is, rfl, hsets, hclears⟩
    · exact ⟨i :: js, j, ks, rfl, hsets, hclears⟩

private theorem run_iff_setLast {P : σ → Prop}
    (hstep : ∀ s i, P (M.step s i).1 ↔ P s ∧ ¬Clears (s, i) ∨ Sets (s, i)) (s : σ) (is : List ι) :
    P (M.run s is) ↔
      (P s ∧ ∀ v ∈ M.visits s is, ¬Clears v) ∨ M.SetLast Sets Clears s is := by
  induction is generalizing s with
  | nil => simp [visits, not_setLast_nil]
  | cons i is ih =>
    rw [run_cons, ih, hstep, setLast_cons, visits, List.forall_mem_cons]
    tauto

/-- What does not hold at first. -/
theorem run_iff_setLast_of_not {P : σ → Prop}
    (hstep : ∀ s i, P (M.step s i).1 ↔ P s ∧ ¬Clears (s, i) ∨ Sets (s, i)) {s : σ} (hs : ¬P s)
    (is : List ι) : P (M.run s is) ↔ M.SetLast Sets Clears s is := by
  rw [run_iff_setLast hstep]
  exact or_iff_right fun h => hs h.1

end NdnFwd.Machine
