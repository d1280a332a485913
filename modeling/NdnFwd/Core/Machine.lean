import Mathlib.Data.List.Induction
import Mathlib.Logic.Relation

/-!
# Resumable tasks and their runs

An asynchronous function is read here as a machine. It suspends at each `await`,
is resumed by one input, and emits the messages it sends before suspending again.
A run is a list of inputs; nothing is assumed about the order in which they come.
-/

namespace NdnFwd

/-- A task resumed by inputs in `ι` that emits messages in `ο`. -/
structure Machine (σ ι ο : Type*) where
  /-- One resumption: the next state, and the messages sent on the way to it. -/
  step : σ → ι → σ × List ο

namespace Machine

variable {σ ι ο : Type*} (M : Machine σ ι ο)

/-- The state after consuming every input in turn. -/
def run (s : σ) : List ι → σ
  | [] => s
  | i :: is => run (M.step s i).1 is

/-- The messages of a whole run, oldest first. -/
def sent (s : σ) : List ι → List ο
  | [] => []
  | i :: is => (M.step s i).2 ++ sent (M.step s i).1 is

/-- Each input of a run, paired with the state that consumes it. -/
def visits (s : σ) : List ι → List (σ × ι)
  | [] => []
  | i :: is => (s, i) :: visits (M.step s i).1 is

@[simp] theorem run_nil (s : σ) : M.run s [] = s := rfl

@[simp] theorem run_cons (s : σ) (i : ι) (is : List ι) :
    M.run s (i :: is) = M.run (M.step s i).1 is := rfl

@[simp] theorem sent_nil (s : σ) : M.sent s [] = [] := rfl

@[simp] theorem sent_cons (s : σ) (i : ι) (is : List ι) :
    M.sent s (i :: is) = (M.step s i).2 ++ M.sent (M.step s i).1 is := rfl

/-- A run over a concatenation resumes where its first part stopped. -/
theorem run_append (s : σ) (is js : List ι) :
    M.run s (is ++ js) = M.run (M.run s is) js := by
  induction is generalizing s with
  | nil => rfl
  | cons i is ih => exact ih (M.step s i).1

/-- So do its visits. -/
theorem visits_append (s : σ) (is js : List ι) :
    M.visits s (is ++ js) = M.visits s is ++ M.visits (M.run s is) js := by
  induction is generalizing s with
  | nil => rfl
  | cons i is ih => rw [List.cons_append, visits, visits, ih, run_cons, List.cons_append]

/-- The last input of a run acts on the state its predecessors left. -/
theorem run_snoc (s : σ) (is : List ι) (i : ι) :
    M.run s (is ++ [i]) = (M.step (M.run s is) i).1 := by
  rw [run_append, run_cons, run_nil]

/-- The messages of a concatenation are those of its parts. -/
theorem sent_append (s : σ) (is js : List ι) :
    M.sent s (is ++ js) = M.sent s is ++ M.sent (M.run s is) js := by
  induction is generalizing s with
  | nil => rfl
  | cons i is ih => rw [List.cons_append, sent_cons, sent_cons, ih, run_cons, List.append_assoc]

/-- The last input appends its own messages to those of its predecessors. -/
theorem sent_snoc (s : σ) (is : List ι) (i : ι) :
    M.sent s (is ++ [i]) = M.sent s is ++ (M.step (M.run s is) i).2 := by
  rw [sent_append, sent_cons, sent_nil, List.append_nil]

/-- A visit splits the run at the input it consumes. -/
theorem exists_of_mem_visits {s : σ} {is : List ι} {v : σ × ι} (hv : v ∈ M.visits s is) :
    ∃ js ks, is = js ++ v.2 :: ks ∧ v.1 = M.run s js := by
  induction is generalizing s with
  | nil => cases hv
  | cons i is ih =>
    rcases List.mem_cons.mp hv with rfl | hv
    · exact ⟨[], is, rfl, rfl⟩
    · obtain ⟨js, ks, rfl, hs⟩ := ih hv
      exact ⟨i :: js, ks, rfl, hs⟩

/-- The state of a visit is that of a shorter prefix than the one the visit ends. -/
theorem exists_prefix_of_mem_visits {s : σ} {is : List ι} {v : σ × ι} (hv : v ∈ M.visits s is) :
    ∃ js, js ++ [v.2] <+: is ∧ v.1 = M.run s js := by
  obtain ⟨js, ks, rfl, hs⟩ := M.exists_of_mem_visits hv
  exact ⟨js, ⟨ks, by rw [List.append_assoc, List.singleton_append]⟩, hs⟩

/-- A prefix makes the first visits of the run. -/
theorem mem_visits_of_isPrefix {s : σ} {is js : List ι} (h : js <+: is) {v : σ × ι}
    (hv : v ∈ M.visits s js) : v ∈ M.visits s is := by
  obtain ⟨ks, rfl⟩ := h
  rw [visits_append]
  exact List.mem_append_left _ hv

/-- The last visit of a run. -/
theorem mem_visits_snoc (s : σ) (is : List ι) (i : ι) :
    (M.run s is, i) ∈ M.visits s (is ++ [i]) := by
  rw [visits_append]
  exact List.mem_append_right _ (List.mem_singleton_self _)

/-- A message of a run was emitted at one of its visits. -/
theorem mem_sent_iff (s : σ) (is : List ι) (o : ο) :
    o ∈ M.sent s is ↔ ∃ v ∈ M.visits s is, o ∈ (M.step v.1 v.2).2 := by
  induction is generalizing s with
  | nil => simp only [sent_nil, visits, List.not_mem_nil, false_and, exists_false]
  | cons i is ih =>
    simp only [sent_cons, visits, List.mem_append, ih, List.mem_cons, or_and_right, exists_or,
      exists_eq_left]

/-- An invariant kept by every resumption on admissible inputs holds after the run. -/
theorem run_invariant {I : σ → Prop} {P : ι → Prop}
    (hstep : ∀ s i, I s → P i → I (M.step s i).1) {s : σ} (hs : I s) :
    ∀ {is : List ι}, (∀ i ∈ is, P i) → I (M.run s is) := by
  intro is hP
  induction is generalizing s with
  | nil => exact hs
  | cons i is ih =>
    exact ih (hstep s i hs (hP i (List.mem_cons_self ..)))
      (fun j hj => hP j (List.mem_cons_of_mem i hj))

/-- It also holds in every state the run passes through. -/
theorem visits_invariant {I : σ → Prop} (hstep : ∀ s i, I s → I (M.step s i).1) {s : σ}
    (hs : I s) {is : List ι} {v : σ × ι} (hv : v ∈ M.visits s is) : I v.1 := by
  induction is generalizing s with
  | nil => cases hv
  | cons i is ih =>
    rcases List.mem_cons.mp hv with rfl | hv
    · exact hs
    · exact ih (hstep s i hs) hv

/-- What holds after a step if it held before, or else for the visit, holds after a run if it held
at first, or else for some visit. -/
theorem run_iff_exists {P : σ → Prop} {Q : σ × ι → Prop}
    (hstep : ∀ s i, P (M.step s i).1 ↔ P s ∨ Q (s, i)) (s : σ) (is : List ι) :
    P (M.run s is) ↔ P s ∨ ∃ v ∈ M.visits s is, Q v := by
  induction is generalizing s with
  | nil => simp [visits]
  | cons i is ih =>
    simp only [run_cons, ih, hstep, visits, List.mem_cons, exists_eq_or_imp]
    exact or_assoc

section Simulation

variable {τ π : Type*} {N : Machine τ ι π} {f : σ → τ}

/-- A map that commutes with single resumptions commutes with whole runs. -/
theorem run_map (h : ∀ s i, f (M.step s i).1 = (N.step (f s) i).1) (s : σ) (is : List ι) :
    f (M.run s is) = N.run (f s) is := by
  induction is generalizing s with
  | nil => rfl
  | cons i is ih => rw [run_cons, run_cons, ih, h]

/-- It also matches the visits of the two machines. -/
theorem visits_map (h : ∀ s i, f (M.step s i).1 = (N.step (f s) i).1) (s : σ) (is : List ι) :
    N.visits (f s) is = (M.visits s is).map fun v => (f v.1, v.2) := by
  induction is generalizing s with
  | nil => rfl
  | cons i is ih => rw [visits, visits, List.map_cons, ← h, ih]

end Simulation

/-- Induction along the prefixes of one run. The step may assume whatever the run
guarantees about an input and the inputs consumed before it. -/
theorem prefix_induction {I : List ι → Prop} {G : List ι → ι → Prop} (h0 : I [])
    (hstep : ∀ is i, I is → G is i → I (is ++ [i])) :
    ∀ {is : List ι}, (∀ is' i js, is = is' ++ i :: js → G is' i) → I is := by
  intro is hG
  induction is using List.reverseRecOn with
  | nil => exact h0
  | append_singleton is i ih =>
    refine hstep is i (ih fun is' j js he => ?_) (hG is i [] rfl)
    exact hG is' j (js ++ [i]) (by rw [he, List.append_assoc, List.cons_append])

/-- Induction along a run of which every visit is known to be of a kind. -/
theorem visits_induction {I : List ι → Prop} {G : σ × ι → Prop} {s : σ} (h0 : I [])
    (hstep : ∀ is i, I is → G (M.run s is, i) → I (is ++ [i])) {is : List ι}
    (hG : ∀ v ∈ M.visits s is, G v) : I is := by
  refine prefix_induction (G := fun is i => G (M.run s is, i)) h0 hstep fun is' i js he => ?_
  apply hG
  refine M.mem_visits_of_isPrefix ?_ (M.mem_visits_snoc s is' i)
  exact ⟨js, by rw [he, List.append_assoc, List.singleton_append]⟩

/-- An invariant kept at every visit of a kind holds after a run of such visits. -/
theorem run_of_visits {I : σ → Prop} {G : σ × ι → Prop}
    (hstep : ∀ s i, I s → G (s, i) → I (M.step s i).1) {s : σ} (hs : I s) {is : List ι}
    (hG : ∀ v ∈ M.visits s is, G v) : I (M.run s is) := by
  refine M.visits_induction (I := fun is => I (M.run s is)) hs (fun is i hi hv => ?_) hG
  rw [run_snoc]
  exact hstep _ i hi hv

end Machine

end NdnFwd
