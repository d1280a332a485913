import Mathlib.Algebra.Order.Group.Nat
import Mathlib.Data.Nat.Log
import Mathlib.Tactic.Ring

/-!
# Rounding to significant bits

The significand of a binary floating-point number has a fixed number of bits. A whole number that
does not fit is rounded to the nearest one that does, a tie to the even significand. As scaling by
a power of two does not touch the significand, this also rounds the numerators of fractions over
such a power.
-/

namespace NdnFwd.Rounding

/-- The quotient rounded to the nearest whole number, a tie to the even one. -/
def nearest (n d : Nat) : Nat :=
  if 2 * (n % d) < d ∨ 2 * (n % d) = d ∧ n / d % 2 = 0 then n / d else n / d + 1

/-- A whole number with a significand of `p` bits. -/
def significant (p n : Nat) : Nat :=
  let ulp := 2 ^ (n.log2 + 1 - p)
  nearest n ulp * ulp

variable {p n d : Nat}

/-- Rounding moves by half a unit at most. -/
theorem nearest_near (hd : 0 < d) :
    2 * n ≤ 2 * (nearest n d * d) + d ∧ 2 * (nearest n d * d) ≤ 2 * n + d := by
  have hdiv := Nat.div_add_mod n d
  have hmod := Nat.mod_lt n hd
  rw [Nat.mul_comm] at hdiv
  rw [nearest]
  split_ifs with h
  · omega
  · rw [Nat.add_mul, Nat.one_mul]
    omega

private theorem div_le_nearest (n d : Nat) : n / d ≤ nearest n d := by
  rw [nearest]
  split_ifs
  · exact Nat.le_refl _
  · exact Nat.le_succ _

/-- A number that fits is not moved. -/
theorem significant_of_lt (h : n < 2 ^ p) : significant p n = n := by
  rcases Nat.eq_zero_or_pos n with rfl | hpos
  · simp [significant, nearest]
  · have hlog : n.log2 + 1 - p = 0 := by
      have := (Nat.log2_lt hpos.ne').mpr h
      omega
    simp [significant, hlog, nearest, Nat.mod_one]

/-- The unit is small beside the number, unless the number fits. -/
theorem ulp_mul_le (hn : 2 ^ p ≤ n) : 2 ^ (n.log2 + 1 - p) * 2 ^ p ≤ 2 * n := by
  have hpos : n ≠ 0 := (Nat.lt_of_lt_of_le (Nat.two_pow_pos p) hn).ne'
  have hlog : p ≤ n.log2 := (Nat.le_log2 hpos).mpr hn
  calc 2 ^ (n.log2 + 1 - p) * 2 ^ p = 2 ^ (n.log2 + 1) := by
        rw [← Nat.pow_add, Nat.sub_add_cancel (by omega)]
    _ = 2 * 2 ^ n.log2 := Nat.pow_succ'
    _ ≤ 2 * n := Nat.mul_le_mul_left 2 (Nat.log2_self_le hpos)

/-- The relative error is a unit of the last place at most. -/
theorem significant_near (p n : Nat) :
    n * 2 ^ p ≤ significant p n * 2 ^ p + n ∧ significant p n * 2 ^ p ≤ n * 2 ^ p + n := by
  rcases Nat.lt_or_ge n (2 ^ p) with h | h
  · rw [significant_of_lt h]
    omega
  · obtain ⟨hlow, hhigh⟩ := nearest_near (n := n) (Nat.two_pow_pos (n.log2 + 1 - p))
    have hulp := ulp_mul_le h
    have hlow' := Nat.mul_le_mul_right (2 ^ p) hlow
    have hhigh' := Nat.mul_le_mul_right (2 ^ p) hhigh
    rw [Nat.add_mul, Nat.mul_assoc 2, Nat.mul_assoc 2] at hlow' hhigh'
    rw [significant]
    omega

/-- Rounding does not fall below a number that fits. -/
theorem le_significant {m k : Nat} (hm : m < 2 ^ p) (h : m * 2 ^ k ≤ n) :
    m * 2 ^ k ≤ significant p n := by
  rcases Nat.eq_zero_or_pos m with rfl | hmpos
  · simp
  rcases Nat.lt_or_ge n (2 ^ p) with hn | hn
  · rwa [significant_of_lt hn]
  · have hpos : n ≠ 0 := (Nat.lt_of_lt_of_le (Nat.two_pow_pos p) hn).ne'
    have hlog : p ≤ n.log2 := (Nat.le_log2 hpos).mpr hn
    have hp : p ≠ 0 := by
      rintro rfl
      omega
    -- a multiple of the unit that is at most `n` is at most `n` rounded down
    have hmul : ∀ q, q * 2 ^ (n.log2 + 1 - p) ≤ n → q * 2 ^ (n.log2 + 1 - p) ≤ significant p n := by
      intro q hq
      refine Nat.mul_le_mul_right _ (Nat.le_trans ?_ (div_le_nearest ..))
      exact (Nat.le_div_iff_mul_le (Nat.two_pow_pos _)).mpr hq
    rcases Nat.lt_or_ge k (n.log2 + 1 - p) with hk | hk
    · have htop : 2 ^ (p - 1) * 2 ^ (n.log2 + 1 - p) = 2 ^ n.log2 := by
        rw [← Nat.pow_add]
        congr 1
        omega
      calc m * 2 ^ k ≤ 2 ^ p * 2 ^ k := Nat.mul_le_mul_right _ hm.le
        _ = 2 ^ (p + k) := (Nat.pow_add ..).symm
        _ ≤ 2 ^ n.log2 := Nat.pow_le_pow_right (by omega) (by omega)
        _ = 2 ^ (p - 1) * 2 ^ (n.log2 + 1 - p) := htop.symm
        _ ≤ significant p n := hmul _ (htop.trans_le (Nat.log2_self_le hpos))
    · obtain ⟨j, rfl⟩ := Nat.exists_eq_add_of_le hk
      rw [Nat.add_comm, Nat.pow_add, ← Nat.mul_assoc] at h ⊢
      exact hmul _ h

end NdnFwd.Rounding
