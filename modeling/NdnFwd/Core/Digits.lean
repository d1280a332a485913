import NdnFwd.Core.Word

/-!
# Numbers in text

Decimal numbers as the standard formatter writes and the standard parser reads
them, and fixed-width hexadecimal. The parser checks every round for overflow and
takes a leading plus sign, so it also reads numbers that the formatter never writes.
-/

namespace NdnFwd

namespace Digits

/-- The digit of a number below ten. -/
def digit (d : Nat) : UInt8 := UInt8.ofNat (0x30 + d)

/-- `format!("{n}")`. -/
def decimal (n : Nat) : Bytes :=
  if n < 10 then [digit n] else decimal (n / 10) ++ [digit (n % 10)]
termination_by n

/-- One round of the parser: `acc.checked_mul(10)?.checked_add(d)?`. -/
def push (bits acc : Nat) (b : UInt8) : Option Nat :=
  if 0x30 ≤ b.toNat ∧ b.toNat ≤ 0x39 then
    if acc * 10 < 2 ^ bits then Word.checkedAdd bits (acc * 10) (b.toNat - 0x30) else none
  else none

/-- The digits after the sign. There must be one. -/
def parseDigits (bits : Nat) (bs : Bytes) : Option Nat :=
  if bs = [] then none else bs.foldlM (push bits) 0

/-- `str::parse` to an unsigned integer of `bits` bits. -/
def parse (bits : Nat) : Bytes → Option Nat
  | 0x2B :: bs => parseDigits bits bs
  | bs => parseDigits bits bs

/-- The hexadecimal digit of a number below sixteen. -/
def hexDigit (d : Nat) : UInt8 := if d < 10 then UInt8.ofNat (0x30 + d) else UInt8.ofNat (0x57 + d)

/-- `format!("{:016x}", n)`. -/
def hex16 (n : UInt64) : Bytes :=
  (Word.beBytes 8 n.toNat).flatMap fun (b : UInt8) =>
    [hexDigit (b.toNat / 16), hexDigit (b.toNat % 16)]

private theorem toNat_digit {d : Nat} (h : d < 10) : (digit d).toNat = 0x30 + d := by
  rw [digit, UInt8.toNat_ofNat']
  exact Nat.mod_eq_of_lt (by omega)

private theorem decimal_of_lt {n : Nat} (h : n < 10) : decimal n = [digit n] := by
  rw [decimal, if_pos h]

private theorem decimal_of_le {n : Nat} (h : 10 ≤ n) :
    decimal n = decimal (n / 10) ++ [digit (n % 10)] := by
  rw [decimal, if_neg (Nat.not_lt.mpr h)]

private theorem decimal_ne_nil (n : Nat) : decimal n ≠ [] := by
  rw [decimal]
  split_ifs <;> simp

/-- Every byte of a decimal number is a digit. -/
theorem mem_decimal {n : Nat} {b : UInt8} (h : b ∈ decimal n) :
    0x30 ≤ b.toNat ∧ b.toNat ≤ 0x39 := by
  induction n using Nat.strongRecOn with
  | ind n ih =>
    by_cases hn : n < 10
    · rw [decimal_of_lt hn, List.mem_singleton] at h
      rw [h, toNat_digit hn]
      omega
    · rw [decimal_of_le (Nat.le_of_not_lt hn), List.mem_append, List.mem_singleton] at h
      rcases h with h | rfl
      · exact ih (n / 10) (by omega) h
      · rw [toNat_digit (Nat.mod_lt n (by decide))]
        omega

private theorem push_digit {bits acc d : Nat} (hd : d < 10) (h : acc * 10 + d < 2 ^ bits) :
    push bits acc (digit d) = some (acc * 10 + d) := by
  have hb := toNat_digit hd
  have hs : 0x30 + d - 0x30 = d := by omega
  rw [push, hb, if_pos ⟨by omega, by omega⟩, if_pos (by omega), Word.checkedAdd, hs, if_pos h]

private theorem foldlM_decimal {bits n : Nat} (h : n < 2 ^ bits) :
    (decimal n).foldlM (push bits) 0 = some n := by
  induction n using Nat.strongRecOn with
  | ind n ih =>
    by_cases hn : n < 10
    · rw [decimal_of_lt hn, List.foldlM_cons, push_digit hn (by omega)]
      simp
    · have hq := ih (n / 10) (by omega) (by omega)
      have hr : n / 10 * 10 + n % 10 = n := by omega
      rw [decimal_of_le (Nat.le_of_not_lt hn), List.foldlM_append, hq, Option.bind_eq_bind,
        Option.bind_some, List.foldlM_cons, push_digit (Nat.mod_lt n (by decide)) (by omega), hr]
      rfl

/-- A number in range is read back from its decimal form. -/
theorem parse_decimal {bits n : Nat} (h : n < 2 ^ bits) : parse bits (decimal n) = some n := by
  have hplus : ∀ bs, decimal n ≠ 0x2B :: bs := by
    intro bs he
    have hmem := mem_decimal (n := n) (b := 0x2B) (he ▸ List.mem_cons_self ..)
    exact absurd hmem.1 (by decide)
  unfold parse
  split
  next bs he => exact absurd he (hplus bs)
  · rw [parseDigits, if_neg (decimal_ne_nil n), foldlM_decimal h]

/-- Different numbers are written differently. -/
theorem decimal_injective : Function.Injective decimal := by
  intro n m h
  have hn : parse (n + m) (decimal n) = some n := parse_decimal (n.lt_two_pow_self.trans_le
    (Nat.pow_le_pow_right (by decide) (Nat.le_add_right n m)))
  have hm : parse (n + m) (decimal m) = some m := parse_decimal (m.lt_two_pow_self.trans_le
    (Nat.pow_le_pow_right (by decide) (Nat.le_add_left m n)))
  rw [h] at hn
  exact Option.some.inj (hn.symm.trans hm)

end Digits

end NdnFwd
