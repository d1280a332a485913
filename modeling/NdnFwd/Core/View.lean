import Mathlib.Data.Set.Basic
import NdnFwd.Core.Machine

/-!
# Materialised views

A view keeps, under each key, facts that a base derives. An operation changes the base
and refreshes some keys, whose facts are replaced by those the base derives by then. A
fact written straight into a view lasts as long as every refresh of its key happens to
derive it.
-/

namespace NdnFwd

/-- A base with its operations, the facts it derives, and the keys that an operation
refreshes, both taken after the operation. -/
structure ViewSpec (β κ ν ω : Type*) where
  update : β → ω → β
  derive : β → κ → Set ν
  refreshes : β → ω → κ → Prop

/-- A base together with a view of it. -/
structure Viewed (β κ ν : Type*) where
  base : β
  view : κ → Set ν

namespace ViewSpec

variable {β κ ν ω : Type*} (S : ViewSpec β κ ν ω)

/-- Change the base, then replace what is refreshed. -/
def step (s : Viewed β κ ν) (op : ω) : Viewed β κ ν where
  base := S.update s.base op
  view k := {x | S.refreshes (S.update s.base op) op k ∧ x ∈ S.derive (S.update s.base op) k ∨
    ¬ S.refreshes (S.update s.base op) op k ∧ x ∈ s.view k}

/-- The view as a machine that sends nothing. -/
def machine : Machine (Viewed β κ ν) ω Empty := ⟨fun s op => (S.step s op, [])⟩

/-- The operation refreshes the key only with the fact derived. -/
def Retains (b : β) (op : ω) (k : κ) (x : ν) : Prop :=
  S.refreshes (S.update b op) op k → x ∈ S.derive (S.update b op) k

/-- One operation keeps a fact exactly when it retains it. -/
theorem mem_step_iff {s : Viewed β κ ν} {op : ω} {k : κ} {x : ν} (hx : x ∈ s.view k) :
    x ∈ (S.step s op).view k ↔ S.Retains s.base op k x := by
  simp only [step, Retains, Set.mem_ofPred_eq]
  tauto

/-- A fact stays in the view over a whole run exactly when every operation retains it. -/
theorem persists_iff {s : Viewed β κ ν} {k : κ} {x : ν} (hx : x ∈ s.view k) (ops : List ω) :
    (∀ pre, pre <+: ops → x ∈ (S.machine.run s pre).view k) ↔
      ∀ v ∈ S.machine.visits s ops, S.Retains v.1.base v.2 k x := by
  induction ops generalizing s with
  | nil =>
    constructor
    · intro _ v hv
      cases hv
    · intro _ pre hpre
      rw [List.prefix_nil.mp hpre]
      exact hx
  | cons op ops ih =>
    constructor
    · intro hall v hv
      have hone : x ∈ (S.step s op).view k := hall [op] ⟨ops, rfl⟩
      rcases List.mem_cons.mp hv with rfl | hv
      · exact (S.mem_step_iff hx).mp hone
      · refine (ih hone).mp (fun pre hpre => ?_) v hv
        exact hall (op :: pre) ((List.prefix_cons_inj op).mpr hpre)
    · intro hall pre hpre
      cases pre with
      | nil => exact hx
      | cons op' pre =>
        obtain ⟨rfl, hrest⟩ := List.cons_prefix_cons.mp hpre
        have hone : x ∈ (S.step s op').view k :=
          (S.mem_step_iff hx).mpr (hall _ (List.mem_cons_self ..))
        exact (ih hone).mpr (fun v hv => hall v (List.mem_cons_of_mem _ hv)) pre hrest

/-- A fact that every base on the way derives is never lost. -/
theorem persists_of_derived {s : Viewed β κ ν} {k : κ} {x : ν} (hx : x ∈ s.view k) {I : β → Prop}
    {P : ω → Prop} (hI : I s.base) (hstep : ∀ b op, I b → P op → I (S.update b op))
    (hderive : ∀ b, I b → x ∈ S.derive b k) {ops : List ω} (hops : ∀ op ∈ ops, P op) :
    I (S.machine.run s ops).base ∧ x ∈ (S.machine.run s ops).view k := by
  refine S.machine.run_invariant (I := fun s => I s.base ∧ x ∈ s.view k) (P := P)
    (fun s op hs hop => ?_) ⟨hI, hx⟩ hops
  have hbase := hstep s.base op hs.1 hop
  exact ⟨hbase, (S.mem_step_iff hs.2).mpr fun _ => hderive _ hbase⟩

end ViewSpec

end NdnFwd
