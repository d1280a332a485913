import NdnFwd.Core.Machine

/-!
# What a task has taken and given back

Some steps of a task acquire things, and some of its messages give them back. A state owes
what has been acquired and not been given back yet. If no step loses anything that is owed, then
whatever a run acquires it gives back, or still owes in the end.
-/

namespace NdnFwd.Machine

variable {σ ι ο α : Type*} (M : Machine σ ι ο) (acquires : σ × ι → List α)
  (releases : ο → Option α)

/-- What a run acquires. -/
def acquired (s : σ) (is : List ι) : List α := (M.visits s is).flatMap acquires

/-- What its messages give back. -/
def released (s : σ) (is : List ι) : List α := (M.sent s is).filterMap releases

/-- Something that was owed before, or that the step acquires, is neither given back nor owed
afterwards. -/
def Loses (owed : σ → List α) (s : σ) (i : ι) : Prop :=
  ∃ a, (a ∈ acquires (s, i) ∨ a ∈ owed s) ∧
    a ∉ (M.step s i).2.filterMap releases ∧ a ∉ owed (M.step s i).1

variable {M acquires releases}

/-- The last step adds what it acquires. -/
theorem acquired_snoc (s : σ) (is : List ι) (i : ι) :
    M.acquired acquires s (is ++ [i]) = M.acquired acquires s is ++ acquires (M.run s is, i) := by
  rw [acquired, visits_append, List.flatMap_append, ← acquired, visits, visits,
    List.flatMap_singleton]

/-- The last step adds what it releases. -/
theorem released_snoc (s : σ) (is : List ι) (i : ι) :
    M.released releases s (is ++ [i]) =
      M.released releases s is ++ (M.step (M.run s is) i).2.filterMap releases := by
  rw [released, sent_snoc, List.filterMap_append, ← released]

/-- A run without a loss gives back what it acquires, or still owes it. -/
theorem released_or_owed {owed : σ → List α} {s : σ} {is : List ι}
    (h : ∀ v ∈ M.visits s is, ¬M.Loses acquires releases owed v.1 v.2) {a : α}
    (ha : a ∈ M.acquired acquires s is) :
    a ∈ M.released releases s is ∨ a ∈ owed (M.run s is) := by
  revert a
  refine M.visits_induction (I := fun is => ∀ {a}, a ∈ M.acquired acquires s is →
    a ∈ M.released releases s is ∨ a ∈ owed (M.run s is))
    (G := fun v => ¬M.Loses acquires releases owed v.1 v.2)
    (fun ha => absurd ha List.not_mem_nil) (fun is i ih hkeep a ha => ?_) h
  rw [released_snoc, run_snoc, List.mem_append]
  rw [acquired_snoc, List.mem_append] at ha
  have hstep : a ∈ acquires (M.run s is, i) ∨ a ∈ owed (M.run s is) →
      a ∈ (M.step (M.run s is) i).2.filterMap releases ∨ a ∈ owed (M.step (M.run s is) i).1 := by
    intro hdue
    by_contra hlost
    exact hkeep ⟨a, hdue, not_or.mp hlost⟩
  rcases ha with ha | ha
  · rcases ih ha with hback | howed
    · exact Or.inl (Or.inl hback)
    · exact (hstep (Or.inr howed)).imp_left Or.inr
  · exact (hstep (Or.inl ha)).imp_left Or.inr

end NdnFwd.Machine
