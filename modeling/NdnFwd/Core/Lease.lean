import NdnFwd.Core.Custody
import Mathlib.Data.List.Nodup

/-!
# Identifiers leased by an allocator

The tasks of a machine draw identifiers from an allocator. Whatever is drawn is held for a
while, and then granted to an entry of a table, or dropped. If every single step balances, so does
every run. If the allocator draws nothing that is held or in the table, no two holders or entries
share an identifier, although one that has left the table may be drawn again.
-/

namespace NdnFwd

namespace Machine

variable {σ ι ο κ : Type*} {M : Machine σ ι ο}

/-- How a machine deals with identifiers. -/
structure Leasing (M : Machine σ ι ο) (κ : Type*) where
  /-- The identifiers of the table. -/
  table : σ → List κ
  /-- The identifiers drawn and not yet granted or dropped. -/
  held : σ → List κ
  /-- The identifiers that a step draws. -/
  draws : σ × ι → List κ
  /-- The identifiers that a step grants. -/
  grants : σ × ι → List κ
  /-- The identifiers that a step drops. -/
  drops : σ × ι → List κ
  /-- What was held or is drawn by a step is granted or dropped by it, or held afterwards. -/
  balance : ∀ s i, (held s ++ draws (s, i)).Perm
    (grants (s, i) ++ drops (s, i) ++ held (M.step s i).1)
  /-- The table has entries that it had and those granted. -/
  table_step : ∀ s i, (table (M.step s i).1).Sublist (table s ++ grants (s, i))

namespace Leasing

variable (L : M.Leasing κ)

/-- Every run balances. -/
theorem balance_run (s : σ) (is : List ι) :
    (L.held s ++ M.acquired L.draws s is).Perm
      (M.acquired L.grants s is ++ M.acquired L.drops s is ++ L.held (M.run s is)) := by
  induction is using List.reverseRecOn with
  | nil => simp [acquired, visits]
  | append_singleton is i ih =>
    have hstep := L.balance (M.run s is) i
    rw [run_snoc, acquired_snoc, acquired_snoc, acquired_snoc, ← List.append_assoc]
    refine (ih.append_right _).trans ?_
    rw [List.append_assoc (M.acquired L.grants s is ++ M.acquired L.drops s is)]
    refine (hstep.append_left _).trans ?_
    classical
    rw [List.perm_iff_count]
    intro a
    simp only [List.count_append]
    omega

/-- No two holders or entries share an identifier. -/
def Sound (s : σ) : Prop := (L.table s ++ L.held s).Nodup

/-- A step draws identifiers that are neither held nor in the table. -/
structure Fresh (v : σ × ι) : Prop where
  /-- Nothing is drawn twice. -/
  nodup : (L.draws v).Nodup
  /-- What is drawn was free. -/
  free : ∀ id ∈ L.draws v, id ∉ L.table v.1 ∧ id ∉ L.held v.1

variable {L}

/-- The table before a step, and whatever the step grants, drops or goes on holding, are different
identifiers. -/
theorem Sound.nodup_step {s : σ} {i : ι} (h : L.Sound s) (hi : L.Fresh (s, i)) :
    (L.table s ++ (L.grants (s, i) ++ L.drops (s, i) ++ L.held (M.step s i).1)).Nodup := by
  refine ((L.balance s i).append_left (L.table s)).nodup_iff.mp ?_
  rw [← List.append_assoc, List.nodup_append]
  refine ⟨h, hi.nodup, ?_⟩
  rintro id hid id' hdrawn rfl
  rcases List.mem_append.mp hid with hid | hid
  · exact (hi.free id hdrawn).1 hid
  · exact (hi.free id hdrawn).2 hid

/-- A grant never takes the place of an entry. -/
theorem Sound.not_mem_table {s : σ} {i : ι} (h : L.Sound s) (hi : L.Fresh (s, i)) {id : κ}
    (hid : id ∈ L.grants (s, i)) : id ∉ L.table s := by
  intro hold
  have hmem := List.mem_append_left (L.held (M.step s i).1)
    (List.mem_append_left (L.drops (s, i)) hid)
  exact (List.nodup_append.mp (h.nodup_step hi)).2.2 id hold id hmem rfl

/-- A step that draws afresh keeps identifiers apart. -/
theorem Sound.step {s : σ} {i : ι} (h : L.Sound s) (hi : L.Fresh (s, i)) :
    L.Sound (M.step s i).1 := by
  refine (h.nodup_step hi).sublist (((L.table_step s i).append_right _).trans ?_)
  rw [List.append_assoc]
  exact ((List.sublist_append_left _ _).append_right _).append_left _

/-- Under a fresh allocator, every run stays sound. -/
theorem Sound.run {s : σ} (h : L.Sound s) {is : List ι} (his : ∀ v ∈ M.visits s is, L.Fresh v) :
    L.Sound (M.run s is) := by
  refine M.visits_induction (I := fun is => L.Sound (M.run s is)) (G := L.Fresh) h
    (fun is i ih hi => ?_) his
  rw [run_snoc]
  exact ih.step hi

/-- So does every state on the way. -/
theorem Sound.visits {s : σ} (h : L.Sound s) {is : List ι}
    (his : ∀ v ∈ M.visits s is, L.Fresh v) : ∀ v ∈ M.visits s is, L.Sound v.1 := by
  intro v hv
  obtain ⟨js, ks, rfl, hrun⟩ := M.exists_of_mem_visits hv
  rw [hrun]
  refine h.run fun u hu => his u ?_
  exact M.mem_visits_of_isPrefix (List.prefix_append js _) hu

end Leasing

end Machine

namespace Lease

variable {τ : Type*}

/-- What the members of a list hold when one of them changes: the others keep theirs. -/
theorem exists_others (held : τ → Option Nat) {ts : List τ} {i : Nat} {t : τ} (h : ts[i]? = some t)
    (f : τ → τ) : ∃ others, (ts.filterMap held).Perm ((held t).toList ++ others) ∧
      ((ts.modify i f).filterMap held).Perm ((held (f t)).toList ++ others) := by
  induction ts generalizing i with
  | nil => cases h
  | cons t' ts ih =>
    cases i with
    | zero =>
      obtain rfl := Option.some.inj h
      refine ⟨ts.filterMap held, ?_, ?_⟩
      · cases ht : held t' <;> simp [ht]
      · cases ht : held (f t') <;> simp [ht]
    | succ i =>
      obtain ⟨others, hold, hnew⟩ := ih h
      refine ⟨(held t').toList ++ others, ?_, ?_⟩
      · cases ht : held t' with
        | none => simpa [ht] using hold
        | some id =>
          rw [List.filterMap_cons_some ht]
          exact (hold.cons id).trans List.perm_middle.symm
      · rw [List.modify_succ_cons]
        cases ht : held t' with
        | none => simpa [ht] using hnew
        | some id =>
          rw [List.filterMap_cons_some ht]
          exact (hnew.cons id).trans List.perm_middle.symm

end Lease

end NdnFwd
