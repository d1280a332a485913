import Mathlib.Data.List.Nodup
import Mathlib.Data.List.Range

/-!
# Numbered requests with retries

A sender numbers its requests upwards. For each request that is outstanding it keeps how often
it was sent again, and sends none again more than `limit` times. The list of all numbers sent
then tells the same as the sheet: every number below the next one was sent, and none more
than `1 + limit` times.
-/

namespace NdnFwd.Attempts

/-- The next fresh number, and the retries of each outstanding one. -/
structure Sheet where
  next : Nat
  retries : Nat → Option Nat

/-- The sender drops some numbers, sends those in `again` once more, and then `fresh` new ones. -/
structure Moves (limit : Nat) (s s' : Sheet) (again : List Nat) (fresh : Nat) : Prop where
  next : s'.next = s.next + fresh
  nodup : again.Nodup
  /-- What is sent again was outstanding and has retries left. -/
  repeated : ∀ k ∈ again, k < s.next ∧ ∃ n < limit, s.retries k = some n ∧
    ∀ n', s'.retries k = some n' → n' = n + 1
  /-- Another old number keeps its retries as long as it is outstanding. -/
  old : ∀ k < s.next, k ∉ again → ∀ n, s'.retries k = some n → s.retries k = some n
  /-- A new number has no retries yet. -/
  new : ∀ k, s.next ≤ k → ∀ n, s'.retries k = some n → n = 0 ∧ k < s'.next

/-- What was sent is in keeping with the sheet. -/
structure Kept (limit : Nat) (s : Sheet) (sends : List Nat) : Prop where
  unsent : ∀ k, s.next ≤ k → sends.count k = 0
  sent : ∀ k < s.next, sends.count k ≤ 1 + limit
  outstanding : ∀ k n, s.retries k = some n → k < s.next ∧ n ≤ limit ∧ sends.count k = 1 + n

/-- The numbers that a move sends. -/
def numbers (s : Sheet) (again : List Nat) (fresh : Nat) : List Nat :=
  again ++ List.range' s.next fresh

variable {limit : Nat} {s s' s'' : Sheet} {again again' sends : List Nat} {fresh fresh' : Nat}

/-- Dropping numbers. -/
theorem Moves.of_drop (hlt : ∀ k n, s.retries k = some n → k < s.next) (hnext : s'.next = s.next)
    (hdrop : ∀ k n, s'.retries k = some n → s.retries k = some n) : Moves limit s s' [] 0 where
  next := hnext
  nodup := List.nodup_nil
  repeated _ hk := absurd hk List.not_mem_nil
  old _ _ _ n hn := hdrop _ n hn
  new k hk n hn := absurd (hlt k n (hdrop k n hn)) (Nat.not_lt.mpr hk)

/-- Two moves make one if the second sends nothing again that the first has sent. -/
theorem Moves.trans (h : Moves limit s s' again fresh) (h' : Moves limit s' s'' again' fresh')
    (hapart : ∀ k ∈ again', k < s.next ∧ k ∉ again) :
    Moves limit s s'' (again ++ again') (fresh + fresh') where
  next := by rw [h'.next, h.next, Nat.add_assoc]
  nodup := h.nodup.append h'.nodup fun k hk hk' => (hapart k hk').2 hk
  repeated k hk := by
    have hle : s.next ≤ s'.next := h.next ▸ Nat.le_add_right ..
    by_cases hin : k ∈ again
    · obtain ⟨hlt, n, hn, hold, hnew⟩ := h.repeated k hin
      refine ⟨hlt, n, hn, hold, fun n' hn' => hnew n' ?_⟩
      exact h'.old k (hlt.trans_le hle) (fun hk' => (hapart k hk').2 hin) n' hn'
    · have hin' := (List.mem_append.mp hk).resolve_left hin
      obtain ⟨-, n, hn, hold, hnew⟩ := h'.repeated k hin'
      exact ⟨(hapart k hin').1, n, hn, h.old k (hapart k hin').1 hin n hold, hnew⟩
  old k hlt hk n hn := by
    have hle : s.next ≤ s'.next := h.next ▸ Nat.le_add_right ..
    have hnot := not_or.mp fun hor => hk (List.mem_append.mpr hor)
    exact h.old k hlt hnot.1 n (h'.old k (hlt.trans_le hle) hnot.2 n hn)
  new k hle n hn := by
    by_cases hlt : k < s'.next
    · have hnot : k ∉ again' := fun hk => absurd (hapart k hk).1 (Nat.not_lt.mpr hle)
      obtain ⟨hzero, -⟩ := h.new k hle n (h'.old k hlt hnot n hn)
      exact ⟨hzero, hlt.trans_le (h'.next ▸ Nat.le_add_right ..)⟩
    · exact h'.new k (Nat.le_of_not_lt hlt) n hn

private theorem count_range' (start n k : Nat) :
    (List.range' start n).count k = if start ≤ k ∧ k < start + n then 1 else 0 := by
  split_ifs with h
  · exact List.count_eq_one_of_mem List.nodup_range' (List.mem_range'_1.mpr h)
  · exact List.count_eq_zero_of_not_mem fun hk => h (List.mem_range'_1.mp hk)

/-- A move sends each new number once and no other number that was not yet given out. -/
theorem Moves.count_new (h : Moves limit s s' again fresh) {k : Nat} (hk : s.next ≤ k) :
    (numbers s again fresh).count k = if k < s'.next then 1 else 0 := by
  have hnot : k ∉ again := fun hin => absurd (h.repeated k hin).1 (Nat.not_lt.mpr hk)
  rw [numbers, List.count_append, List.count_eq_zero_of_not_mem hnot, count_range', h.next,
    Nat.zero_add]
  simp only [hk, true_and]

/-- It sends an old number once if it sends it again. -/
theorem Moves.count_old (h : Moves limit s s' again fresh) {k : Nat} (hk : k < s.next) :
    (numbers s again fresh).count k = if k ∈ again then 1 else 0 := by
  rw [numbers, List.count_append, count_range', if_neg fun hand => Nat.not_lt.mpr hand.1 hk,
    Nat.add_zero]
  split_ifs with hin
  · exact List.count_eq_one_of_mem h.nodup hin
  · exact List.count_eq_zero_of_not_mem hin

/-- Before anything is sent. -/
theorem kept_start (limit : Nat) : Kept limit ⟨0, fun _ => none⟩ [] :=
  ⟨fun _ _ => rfl, fun k hk => absurd hk (Nat.not_lt_zero k), fun _ _ hn => by cases hn⟩

/-- What was sent stays in keeping with the sheet. -/
theorem Kept.moves (h : Kept limit s sends) (hm : Moves limit s s' again fresh) :
    Kept limit s' (sends ++ numbers s again fresh) := by
  have hle : s.next ≤ s'.next := hm.next ▸ Nat.le_add_right ..
  refine ⟨fun k hk => ?_, fun k hk => ?_, fun k n hn => ?_⟩
  · have hold := hle.trans hk
    rw [List.count_append, h.unsent k hold, hm.count_new hold, if_neg (Nat.not_lt.mpr hk)]
  · rw [List.count_append]
    by_cases hold : k < s.next
    · rw [hm.count_old hold]
      split_ifs with hin
      · obtain ⟨-, n, hn, hretries, -⟩ := hm.repeated k hin
        have hcount := (h.outstanding k n hretries).2.2
        omega
      · exact h.sent k hold
    · have hnew := Nat.le_of_not_lt hold
      rw [h.unsent k hnew, hm.count_new hnew, if_pos hk]
      omega
  · rw [List.count_append]
    by_cases hold : k < s.next
    · refine ⟨hold.trans_le hle, ?_⟩
      rw [hm.count_old hold]
      split_ifs with hin
      · obtain ⟨-, m, hm', hretries, hnext⟩ := hm.repeated k hin
        have hcount := (h.outstanding k m hretries).2.2
        have hn' := hnext n hn
        omega
      · exact (h.outstanding k n (hm.old k hold hin n hn)).2
    · have hnew := Nat.le_of_not_lt hold
      obtain ⟨rfl, hlt⟩ := hm.new k hnew n hn
      rw [h.unsent k hnew, hm.count_new hnew, if_pos hlt]
      exact ⟨hlt, Nat.zero_le _, rfl⟩

end NdnFwd.Attempts
