import NdnFwd.Core.Machine
import NdnFwd.Core.Turnover
import NdnFwd.Core.Word

/-!
# The forwarding-soak probe

Every tick adds up the counters of the faces there are, and compares the sums with those of the
tick before. The drops of a face that was removed in between leave the sum, and hide as many
drops of the faces that stay. A sum beyond 64 bits wraps around, or makes the probe panic.
-/

namespace NdnFwd.Soak

/-- `FaceCounters`, as far as the probe reads them. -/
structure FaceCounters where
  inInterests : UInt64
  inData : UInt64
  outInterests : UInt64
  outData : UInt64
  outDrops : UInt64
  inUnsatisfiedInterests : UInt64
  deriving DecidableEq, Repr

/-- The packets of a face. -/
def FaceCounters.pkts (c : FaceCounters) : Nat :=
  c.inInterests.toNat + c.inData.toNat + c.outInterests.toNat + c.outData.toNat

/-- Its drops. -/
def FaceCounters.drops (c : FaceCounters) : Nat := c.outDrops.toNat

/-- Its unsatisfied Interests. -/
def FaceCounters.unsat (c : FaceCounters) : Nat := c.inUnsatisfiedInterests.toNat

/-- The packets of a face as the probe adds them up, in a build with or without overflow checks. -/
def FaceCounters.addPkts (checks : Bool) (c : FaceCounters) : Option Nat := do
  let n ← Word.add 64 checks c.inInterests.toNat c.inData.toNat
  let n ← Word.add 64 checks n c.outInterests.toNat
  Word.add 64 checks n c.outData.toNat

/-- `face_states`. -/
abbrev FaceStates := Table Nat FaceCounters

/-- The sums that a tick takes over all faces. -/
structure Sums where
  pkts : Nat
  drops : Nat
  unsat : Nat
  deriving DecidableEq, Repr

/-- The loop over the faces; `none` is an overflow panic. -/
def sums (checks : Bool) (faceStates : FaceStates) : Option Sums := do
  let pkts ← Word.sum 64 checks (FaceCounters.addPkts checks) 0 faceStates.values
  let drops ← Word.sum 64 checks (fun c => some c.drops) 0 faceStates.values
  let unsat ← Word.sum 64 checks (fun c => some c.unsat) 0 faceStates.values
  return ⟨pkts, drops, unsat⟩

/-- What a tick of the probe returns. -/
structure Report where
  ok : Bool
  detail : String
  deriving DecidableEq, Repr

/-- The report on the sums of a tick, given those of the tick before. -/
def report (prev : Nat × Nat) (s : Sums) : Report :=
  let dPkts := s.pkts - prev.1
  let dDrops := s.drops - prev.2
  ⟨decide (dDrops = 0), "pkt_delta=" ++ toString dPkts ++ " drop_delta=" ++ toString dDrops ++
    " unsat=" ++ toString s.unsat⟩

/-- `forwarding_probe`, which is shown the table at every tick. After a panic there is no state,
and the polling task has ended with it. -/
def forwardingProbe (checks : Bool) : Machine (Option (Nat × Nat)) FaceStates Report where
  step
    | none, _ => (none, [])
    | some prev, faceStates =>
      match sums checks faceStates with
      | none => (none, [])
      | some s => (some (s.pkts, s.drops), [report prev s])

/-- What the probe reports, tick by tick, as long as it does not panic. -/
def reports (checks : Bool) (ticks : List FaceStates) : List Report :=
  (forwardingProbe checks).sent (some (0, 0)) ticks

/-- The tables of two consecutive ticks. -/
def Consecutive (ticks : List FaceStates) (i : Nat) (t u : FaceStates) : Prop :=
  ticks[i]? = some t ∧ ticks[i + 1]? = some u

/-- The drops of a face only grow while it lives. -/
def Growing (ticks : List FaceStates) : Prop :=
  ∀ i t u, Consecutive ticks i t u → Table.Growing FaceCounters.drops t u

/-- A tick fails whenever some face that is still there has dropped more. -/
def MissesNoDrop (checks : Bool) (ticks : List FaceStates) : Prop :=
  ∀ i t u, Consecutive ticks i t u → Table.Grew FaceCounters.drops t u →
    ∃ r, (reports checks ticks)[i + 1]? = some r ∧ r.ok = false

/-- No sum over the table reaches 2^64. -/
structure Fits (t : FaceStates) : Prop where
  pkts : t.total FaceCounters.pkts < 2 ^ 64
  drops : t.total FaceCounters.drops < 2 ^ 64
  unsat : t.total FaceCounters.unsat < 2 ^ 64

/-- More drops are gained than lost. Each time that a sum passes 2^64 counts as so many lost where
it is the later one, and as so many gained where it is the earlier one. -/
def Outweighs (t u : FaceStates) : Prop :=
  Table.lost FaceCounters.drops t u + 2 ^ 64 * (u.total FaceCounters.drops / 2 ^ 64) <
    Table.gained FaceCounters.drops t u + 2 ^ 64 * (t.total FaceCounters.drops / 2 ^ 64)

variable {checks : Bool} {ticks : List FaceStates} {i : Nat} {t u : FaceStates}

private theorem add_drops (checks : Bool) (c : FaceCounters) :
    some c.drops = Word.add 64 checks 0 c.drops := by
  have hlt : 0 + c.drops < 2 ^ 64 := by
    rw [Nat.zero_add]
    exact c.outDrops.toNat_lt
  rw [Word.add_of_lt checks hlt, Nat.zero_add]

private theorem add_unsat (checks : Bool) (c : FaceCounters) :
    some c.unsat = Word.add 64 checks 0 c.unsat := by
  have hlt : 0 + c.unsat < 2 ^ 64 := by
    rw [Nat.zero_add]
    exact c.inUnsatisfiedInterests.toNat_lt
  rw [Word.add_of_lt checks hlt, Nat.zero_add]

private theorem add_pkts (checks : Bool) (c : FaceCounters) :
    c.addPkts checks = Word.add 64 checks 0 c.pkts := by
  have hthree := Word.add_bind_add 64 checks c.inInterests.toNat c.inData.toNat
    c.outInterests.toNat
  have hfour := Word.add_bind_add 64 checks c.inInterests.toNat
    (c.inData.toNat + c.outInterests.toNat) c.outData.toNat
  rw [← hthree, Option.bind_assoc] at hfour
  rw [FaceCounters.addPkts, FaceCounters.pkts, Nat.add_assoc, Nat.add_assoc,
    ← Nat.add_assoc c.inData.toNat, ← Word.add_eq_zero_add]
  exact hfour

/-- The sums are those of the counters, up to an overflow. -/
private theorem sums_eq (checks : Bool) (t : FaceStates) :
    sums checks t = (Word.add 64 checks 0 (t.total FaceCounters.pkts)).bind fun pkts =>
      (Word.add 64 checks 0 (t.total FaceCounters.drops)).bind fun drops =>
        (Word.add 64 checks 0 (t.total FaceCounters.unsat)).bind fun unsat =>
          some ⟨pkts, drops, unsat⟩ := by
  have hpos := Nat.two_pow_pos 64
  rw [sums, Word.sum_eq_add checks (add_pkts checks) hpos,
    Word.sum_eq_add checks (add_drops checks) hpos,
    Word.sum_eq_add checks (add_unsat checks) hpos]
  rfl

/-- A tick comes through exactly if no sum overflows or no overflow is checked. -/
theorem sums_eq_some_iff {s : Sums} : sums checks t = some s ↔ (checks = true → Fits t) ∧
    s = ⟨t.total FaceCounters.pkts % 2 ^ 64, t.total FaceCounters.drops % 2 ^ 64,
      t.total FaceCounters.unsat % 2 ^ 64⟩ := by
  rw [sums_eq]
  cases checks with
  | false =>
    simp only [Word.add_wrapping, Option.bind_some, Nat.zero_add, Option.some.injEq,
      Bool.false_eq_true, false_implies, true_and]
    exact eq_comm
  | true =>
    simp only [Option.bind_eq_some_iff, Word.add_checked_eq_some_iff, Nat.zero_add,
      Option.some.injEq, true_implies]
    constructor
    · rintro ⟨_, ⟨rfl, hp⟩, _, ⟨rfl, hd⟩, _, ⟨rfl, hu⟩, rfl⟩
      exact ⟨⟨hp, hd, hu⟩, by rw [Nat.mod_eq_of_lt hp, Nat.mod_eq_of_lt hd, Nat.mod_eq_of_lt hu]⟩
    · rintro ⟨⟨hp, hd, hu⟩, rfl⟩
      refine ⟨_, ⟨rfl, hp⟩, _, ⟨rfl, hd⟩, _, ⟨rfl, hu⟩, ?_⟩
      rw [Nat.mod_eq_of_lt hp, Nat.mod_eq_of_lt hd, Nat.mod_eq_of_lt hu]

/-- What the probe keeps of a table. -/
private def kept (t : FaceStates) : Nat × Nat :=
  (t.total FaceCounters.pkts % 2 ^ 64, t.total FaceCounters.drops % 2 ^ 64)

private theorem step_of_fits (h : checks = true → Fits t) (prev : Nat × Nat) :
    ∃ r, (forwardingProbe checks).step (some prev) t = (some (kept t), [r]) ∧
      (r.ok = false ↔ prev.2 < t.total FaceCounters.drops % 2 ^ 64) := by
  have hsums := sums_eq_some_iff.mpr ⟨h, rfl⟩
  refine ⟨report prev ⟨_, _, _⟩, by simp only [forwardingProbe, hsums]; rfl, ?_⟩
  simp only [report, decide_eq_false_iff_not, Nat.sub_eq_zero_iff_le, Nat.not_le]

private theorem step_of_not_fits (h : ¬(checks = true → Fits t)) (prev : Nat × Nat) :
    (forwardingProbe checks).step (some prev) t = (none, []) := by
  have hsums : sums checks t = none :=
    Option.eq_none_iff_forall_ne_some.mpr fun s hs => h (sums_eq_some_iff.mp hs).1
  simp only [forwardingProbe, hsums]

private theorem sent_none (ticks : List FaceStates) :
    (forwardingProbe checks).sent none ticks = [] := by
  induction ticks with
  | nil => rfl
  | cons t ticks ih =>
    rw [Machine.sent_cons]
    exact ih

/-- The report of a tick, if the probe has lived to it. -/
private theorem ok_iff {prev : Nat × Nat} : (∃ r, ((forwardingProbe checks).sent (some prev)
      (t :: ticks))[0]? = some r ∧ r.ok = false) ↔
    (checks = true → Fits t) ∧ prev.2 < t.total FaceCounters.drops % 2 ^ 64 := by
  rw [Machine.sent_cons]
  by_cases h : checks = true → Fits t
  · obtain ⟨r, hstep, hok⟩ := step_of_fits h prev
    rw [hstep, List.singleton_append, List.getElem?_cons_zero, and_iff_right h]
    simp only [Option.some.injEq, exists_eq_left', hok]
  · simp [step_of_not_fits h, sent_none, h]

private theorem fails_from (prev : Nat × Nat) (h : Consecutive ticks i t u) :
    (∃ r, ((forwardingProbe checks).sent (some prev) ticks)[i + 1]? = some r ∧ r.ok = false) ↔
      (checks = true → ∀ v ∈ ticks.take (i + 2), Fits v) ∧
        t.total FaceCounters.drops % 2 ^ 64 < u.total FaceCounters.drops % 2 ^ 64 := by
  induction ticks generalizing i prev with
  | nil => cases h.1
  | cons v ticks ih =>
    have hall : (checks = true → ∀ w ∈ (v :: ticks).take (i + 2), Fits w) ↔
        (checks = true → Fits v) ∧ (checks = true → ∀ w ∈ ticks.take (i + 1), Fits w) := by
      simp only [List.take_succ_cons, List.forall_mem_cons, forall_and]
    rw [hall, Machine.sent_cons]
    by_cases hv : checks = true → Fits v
    · obtain ⟨r, hstep, -⟩ := step_of_fits hv prev
      rw [hstep, List.singleton_append, List.getElem?_cons_succ, and_iff_right hv]
      cases i with
      | zero =>
        obtain ⟨rfl, hu⟩ : v = t ∧ ticks[0]? = some u := ⟨Option.some.inj h.1, h.2⟩
        obtain ⟨ticks, rfl⟩ : ∃ more, ticks = u :: more := by
          cases ticks with
          | nil => cases hu
          | cons w more => exact ⟨more, by rw [Option.some.inj hu]⟩
        rw [ok_iff]
        simp [kept]
      | succ i => exact ih (kept v) h
    · rw [step_of_not_fits hv, sent_none]
      simp [hv]

/-- The sums compare as what was gained and what was lost, up to the overflows. -/
theorem outweighs_iff (h : Table.Growing FaceCounters.drops t u) :
    t.total FaceCounters.drops % 2 ^ 64 < u.total FaceCounters.drops % 2 ^ 64 ↔
      Outweighs t u := by
  have hbalance := Table.total_add_gained h
  rw [Outweighs]
  omega

/-- When a tick fails. -/
theorem fails_iff (h : Consecutive ticks i t u) (hgrow : Growing ticks) :
    (∃ r, (reports checks ticks)[i + 1]? = some r ∧ r.ok = false) ↔
      (checks = true → ∀ v ∈ ticks.take (i + 2), Fits v) ∧ Outweighs t u := by
  rw [← outweighs_iff (hgrow i t u h)]
  exact fails_from (0, 0) h

/-- Between sums that fit, what was gained and what was lost decide. -/
theorem outweighs_of_fits (ht : Fits t) (hu : Fits u) : Outweighs t u ↔
    Table.lost FaceCounters.drops t u < Table.gained FaceCounters.drops t u := by
  rw [Outweighs, Nat.div_eq_of_lt ht.drops, Nat.div_eq_of_lt hu.drops]
  rfl

/-- While no face is removed and the sums fit, the probe misses no drop. -/
theorem missesNoDrop_of_kept (hgrow : Growing ticks) (hfits : ∀ t ∈ ticks, Fits t)
    (hkept : ∀ i t u, Consecutive ticks i t u → Table.keySet t ⊆ Table.keySet u) :
    MissesNoDrop checks ticks := by
  intro i t u h hgrew
  have hgained := (Table.total_lt_iff (hgrow i t u h)).mp
    (hgrew.total_lt (hgrow i t u h) (hkept i t u h))
  refine (fails_iff h hgrow).mpr ⟨fun _ v hv => hfits v (List.mem_of_mem_take hv), ?_⟩
  exact (outweighs_of_fits (hfits t (List.mem_of_getElem? h.1))
    (hfits u (List.mem_of_getElem? h.2))).mpr hgained

/-- The probe misses no drop exactly if, wherever a face that is still there has dropped more, the
drops that went with the faces removed are fewer than those gained on the faces there are, counting
the overflows of the sums, and no overflow has made the probe panic. -/
theorem missesNoDrop_iff (checks : Bool) (ticks : List FaceStates) (hgrow : Growing ticks) :
    MissesNoDrop checks ticks ↔ ∀ i t u, Consecutive ticks i t u →
      Table.Grew FaceCounters.drops t u →
        (checks = true → ∀ v ∈ ticks.take (i + 2), Fits v) ∧ Outweighs t u := by
  constructor
  · intro hmisses i t u h hgrew
    exact (fails_iff h hgrow).mp (hmisses i t u h hgrew)
  · intro hgained i t u h hgrew
    exact (fails_iff h hgrow).mpr (hgained i t u h hgrew)

section Samples

/-- A face that has only dropped. -/
def dropped (n : UInt64) : FaceCounters := ⟨0, 0, 0, 0, n, 0⟩

/-- One face, which drops three more. -/
def sampleKept : List FaceStates := [AList.singleton 1 (dropped 2), AList.singleton 1 (dropped 5)]

/-- A face with five drops is removed while another one drops three. -/
def sampleRemoved : List FaceStates :=
  [(AList.singleton 1 (dropped 5)).insert 2 (dropped 0), AList.singleton 2 (dropped 3)]

private theorem consecutive_pair {a b : FaceStates} (h : Consecutive [a, b] i t u) :
    t = a ∧ u = b := by
  obtain ⟨ht, hu⟩ := h
  match i with
  | 0 => exact ⟨(Option.some.inj ht).symm, (Option.some.inj hu).symm⟩
  | i + 1 => simp at hu

private theorem sampleKept_growing : Growing sampleKept := by
  intro i t u h
  obtain ⟨rfl, rfl⟩ := consecutive_pair h
  decide

private theorem sampleKept_fits : ∀ t ∈ sampleKept, Fits t := by
  rintro t ht
  simp only [sampleKept, List.mem_cons, List.not_mem_nil, or_false] at ht
  rcases ht with rfl | rfl
  · exact ⟨by decide, by decide, by decide⟩
  · exact ⟨by decide, by decide, by decide⟩

/-- Faces that stay are watched reliably. -/
theorem sampleKept_missesNoDrop : MissesNoDrop true sampleKept ∧ MissesNoDrop false sampleKept := by
  have hall : ∀ checks : Bool, ∀ i t u, Consecutive sampleKept i t u →
      Table.Grew FaceCounters.drops t u →
        (checks = true → ∀ v ∈ sampleKept.take (i + 2), Fits v) ∧ Outweighs t u := by
    intro checks i t u h _
    refine ⟨fun _ v hv => sampleKept_fits v (List.mem_of_mem_take hv), ?_⟩
    obtain ⟨rfl, rfl⟩ := consecutive_pair h
    unfold Outweighs
    decide
  exact ⟨(missesNoDrop_iff true sampleKept sampleKept_growing).mpr (hall true),
    (missesNoDrop_iff false sampleKept sampleKept_growing).mpr (hall false)⟩

/-- The drops of the face removed hide those of the other one. -/
theorem sampleRemoved_misses :
    Growing sampleRemoved ∧ ∀ checks : Bool, ¬MissesNoDrop checks sampleRemoved := by
  constructor
  · intro i t u h
    obtain ⟨rfl, rfl⟩ := consecutive_pair h
    decide
  · intro checks h
    obtain ⟨r, hr, hok⟩ := h 0 _ _ ⟨rfl, rfl⟩ ⟨2, by decide, by decide⟩
    have hreport : (reports checks sampleRemoved)[1]?.map Report.ok = some true := by
      cases checks <;> decide
    rw [hr, Option.map_some, hok] at hreport
    cases hreport

end Samples

end NdnFwd.Soak
