import Mathlib.Data.Option.Basic

/-!
# Signature algorithms and who can satisfy them

A verifier is handed the name of an algorithm, a key, a message and a value. What an
accepted value shows depends on the kind of the algorithm alone: a digest ignores the
key, and a MAC takes the key itself for the secret, so whoever knows the key that the
verifier uses can compute a value that these accept. Only an asymmetric algorithm asks
for something the verifier does not hold.
-/

namespace NdnFwd

/-- A signature algorithm over keys `κ`, messages `μ` and values `σ`. -/
inductive Algorithm (κ μ σ : Type*)
  /-- An unkeyed digest of the message. -/
  | digest (hash : μ → σ)
  /-- A symmetric MAC under the key. -/
  | mac (tag : κ → μ → σ)
  /-- An asymmetric signature, checked with the public key. `none` is a malformed key. -/
  | asymmetric (check : κ → μ → σ → Option Bool)

/-- The algorithms a verifier supports, by the name it is given. -/
abbrev Suite (τ κ μ σ : Type*) := τ → Option (Algorithm κ μ σ)

namespace Algorithm

variable {κ μ σ : Type*}

/-- The algorithm asks for a secret that the verifier does not hold. -/
def IsAsymmetric : Algorithm κ μ σ → Prop
  | asymmetric _ => True
  | digest _ | mac _ => False

instance : (a : Algorithm κ μ σ) → Decidable a.IsAsymmetric
  | asymmetric _ => isTrue trivial
  | digest _ | mac _ => isFalse id

/-- The value that anyone can compute who knows the key of the verifier. -/
def publicValue (key : κ) (message : μ) : Algorithm κ μ σ → Option σ
  | digest hash => some (hash message)
  | mac tag => some (tag key message)
  | asymmetric _ => none

variable [DecidableEq σ]

/-- Verification: `none` is an error, not a verdict. -/
def run (key : κ) (message : μ) (value : σ) : Algorithm κ μ σ → Option Bool
  | digest hash => some (decide (value = hash message))
  | mac tag => some (decide (value = tag key message))
  | asymmetric check => check key message value

/-- Of the other algorithms, each accepts the one value that everyone can compute. -/
theorem run_eq_true_iff {a : Algorithm κ μ σ} (ha : ¬a.IsAsymmetric) {key : κ} {message : μ}
    {value : σ} : a.run key message value = some true ↔ a.publicValue key message = some value := by
  cases a with
  | digest hash =>
    simp only [run, publicValue, Option.some.injEq, decide_eq_true_eq]
    exact eq_comm
  | mac tag =>
    simp only [run, publicValue, Option.some.injEq, decide_eq_true_eq]
    exact eq_comm
  | asymmetric check => exact absurd trivial ha

/-- And there always is one. -/
theorem exists_publicValue {a : Algorithm κ μ σ} (ha : ¬a.IsAsymmetric) (key : κ) (message : μ) :
    ∃ value, a.run key message value = some true := by
  cases a with
  | digest hash => exact ⟨hash message, (run_eq_true_iff id).mpr rfl⟩
  | mac tag => exact ⟨tag key message, (run_eq_true_iff id).mpr rfl⟩
  | asymmetric check => exact absurd trivial ha

end Algorithm

namespace Suite

variable {τ κ μ σ : Type*} (suite : Suite τ κ μ σ)

/-- The name is that of an asymmetric algorithm. -/
def Asymmetric (t : τ) : Prop := ∃ a ∈ suite t, a.IsAsymmetric

instance (t : τ) : Decidable (Suite.Asymmetric suite t) :=
  inferInstanceAs (Decidable (∃ a ∈ suite t, a.IsAsymmetric))

variable [DecidableEq σ]

/-- Run the algorithm of the given name. A name that is not supported is an error. -/
def verify (t : τ) (message : μ) (value : σ) (key : κ) : Option Bool :=
  (suite t).bind (Algorithm.run key message value)

end Suite

end NdnFwd
