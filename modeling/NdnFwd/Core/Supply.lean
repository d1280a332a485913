import Mathlib.Data.List.Nodup
import Mathlib.Data.List.Infix
import Mathlib.Logic.Function.Basic

/-!
# Handing out identifiers

A supply hands out the identifiers `alloc n`, `alloc (n + 1)` and so on. A list of
requests takes one identifier each, unless an earlier round has reserved one for it.
An injective supply never hands out one identifier twice, in one round or in several.
-/

namespace NdnFwd

namespace Supply

variable {ι α : Type*} (alloc : Nat → ι)

/-- Give every element the next identifier. -/
def tag : Nat → List α → List (ι × α)
  | _, [] => []
  | next, a :: as => (alloc next, a) :: tag (next + 1) as

/-- Give every element its reserved identifier, or else the next one. -/
def assign (reserved : α → Option ι) : Nat → List α → List ι
  | _, [] => []
  | next, a :: as =>
    match reserved a with
    | some id => id :: assign reserved next as
    | none => alloc next :: assign reserved (next + 1) as

/-- Tagging keeps the values. -/
@[simp] theorem map_snd_tag (next : Nat) (as : List α) : (tag alloc next as).map Prod.snd = as := by
  induction as generalizing next with
  | nil => rfl
  | cons a as ih => rw [tag, List.map_cons, ih]

/-- The identifier of an element counts the elements before it. -/
theorem mem_tag {next : Nat} {as : List α} {id : ι} {a : α} (h : (id, a) ∈ tag alloc next as) :
    ∃ i, as[i]? = some a ∧ i < as.length ∧ id = alloc (next + i) := by
  induction as generalizing next with
  | nil => cases h
  | cons b as ih =>
    rcases List.mem_cons.mp h with he | h
    · obtain ⟨rfl, rfl⟩ := Prod.mk.inj he
      exact ⟨0, List.getElem?_cons_zero, Nat.zero_lt_succ _, rfl⟩
    · obtain ⟨i, hi, hlt, hid⟩ := ih h
      refine ⟨i + 1, by rw [List.getElem?_cons_succ, hi], Nat.succ_lt_succ hlt, ?_⟩
      rw [hid, Nat.add_assoc, Nat.add_comm 1]

/-- Everything gets an identifier. -/
@[simp] theorem length_assign (reserved : α → Option ι) (next : Nat) (as : List α) :
    (assign alloc reserved next as).length = as.length := by
  induction as generalizing next with
  | nil => rfl
  | cons a as ih =>
    unfold assign
    cases reserved a with
    | some id => rw [List.length_cons, ih, List.length_cons]
    | none => rw [List.length_cons, ih, List.length_cons]

/-- An assigned identifier was reserved for one of the elements, or is a later one. -/
theorem mem_assign {reserved : α → Option ι} {next : Nat} {as : List α} {id : ι}
    (h : id ∈ assign alloc reserved next as) :
    (∃ a ∈ as, reserved a = some id) ∨ ∃ n, next ≤ n ∧ id = alloc n := by
  induction as generalizing next with
  | nil => cases h
  | cons a as ih =>
    unfold assign at h
    cases hr : reserved a with
    | some id' =>
      rw [hr] at h
      rcases List.mem_cons.mp h with rfl | h
      · exact Or.inl ⟨a, List.mem_cons_self .., hr⟩
      · exact (ih h).imp_left fun ⟨b, hb, hid⟩ => ⟨b, List.mem_cons_of_mem a hb, hid⟩
    | none =>
      rw [hr] at h
      rcases List.mem_cons.mp h with rfl | h
      · exact Or.inr ⟨next, le_rfl, rfl⟩
      · rcases ih h with ⟨b, hb, hid⟩ | ⟨n, hle, hid⟩
        · exact Or.inl ⟨b, List.mem_cons_of_mem a hb, hid⟩
        · exact Or.inr ⟨n, by omega, hid⟩

/-- A reserved identifier is the one assigned. -/
theorem getElem?_assign {reserved : α → Option ι} {next : Nat} {as : List α} {i : Nat} {a : α}
    {id : ι} (ha : as[i]? = some a) (hid : reserved a = some id) :
    (assign alloc reserved next as)[i]? = some id := by
  induction as generalizing next i with
  | nil => cases ha
  | cons b as ih =>
    unfold assign
    cases i with
    | zero =>
      obtain rfl : b = a := by simpa using ha
      rw [hid, List.getElem?_cons_zero]
    | succ i =>
      rw [List.getElem?_cons_succ] at ha
      cases reserved b with
      | some id' => rw [List.getElem?_cons_succ, ih ha]
      | none => rw [List.getElem?_cons_succ, ih ha]

/-- One round of an injective supply has no repetitions, if the reserved identifiers are
those of earlier rounds and no two elements share one. -/
theorem nodup_assign (hinj : Function.Injective alloc) {reserved : α → Option ι} {next : Nat}
    {as : List α} (has : as.Nodup)
    (hapart : ∀ a b id, reserved a = some id → reserved b = some id → a = b)
    (hearlier : ∀ a id, reserved a = some id → ∃ n < next, id = alloc n) :
    (assign alloc reserved next as).Nodup := by
  induction as generalizing next with
  | nil => exact List.nodup_nil
  | cons a as ih =>
    obtain ⟨hnot, hrest⟩ := List.nodup_cons.mp has
    unfold assign
    cases hr : reserved a with
    | some id =>
      refine List.nodup_cons.mpr ⟨fun hmem => ?_, ih hrest hearlier⟩
      rcases mem_assign alloc hmem with ⟨b, hb, hrb⟩ | ⟨n, hle, hid⟩
      · exact hnot (hapart a b id hr hrb ▸ hb)
      · obtain ⟨m, hlt, hid'⟩ := hearlier a id hr
        have hnm := hinj (hid.symm.trans hid')
        omega
    | none =>
      have hlater : ∀ b id, reserved b = some id → ∃ n < next + 1, id = alloc n := by
        intro b id hb
        obtain ⟨n, hlt, hid⟩ := hearlier b id hb
        exact ⟨n, by omega, hid⟩
      refine List.nodup_cons.mpr ⟨fun hmem => ?_, ih hrest hlater⟩
      rcases mem_assign alloc hmem with ⟨b, -, hrb⟩ | ⟨n, hle, hid⟩
      · obtain ⟨m, hlt, hid⟩ := hearlier b _ hrb
        have hnm := hinj hid
        omega
      · have hnm := hinj hid
        omega

end Supply

end NdnFwd
